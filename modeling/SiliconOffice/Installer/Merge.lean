import Mathlib.Data.List.Forall2
import SiliconOffice.Installer.InstallHooks

/-!
# What installing and uninstalling add up to

Stripping is idempotent and always takes the installer's own group away, so a call sees
through every call before it: a whole history of installs, upgrades and uninstalls comes
to its last call (`invocations_absorb`).

What belongs to others is kept except for one kind of group.  A group without hook entries
has nothing left after filtering and is dropped as if it had been the installer's own;
`untouched_iff` says that no other group is lost.
-/

namespace SiliconOffice
namespace Installer

open Library Python

variable {repr : Json → String} {emitterPath : String} {install : Bool}
  {settings result group kept : Json}

/-! ## One group -/

theorem get?_withHooks (h : group.isObject = true) (remaining : List Json) (name : String) :
    (withHooks group remaining).get? name =
      if name == "hooks" then some (.arr remaining) else group.get? name := by
  obtain ⟨members, rfl⟩ := Json.isObject_iff.mp h
  exact Assoc.lookup_store "hooks" name (Json.arr remaining) members

theorem isObject_withHooks (h : group.isObject = true) (remaining : List Json) :
    (withHooks group remaining).isObject = true := by
  obtain ⟨members, rfl⟩ := Json.isObject_iff.mp h
  rfl

theorem entriesOf_withHooks (h : group.isObject = true) (remaining : List Json) :
    entriesOf (withHooks group remaining) = remaining := by
  unfold entriesOf
  rw [get?_withHooks h]
  rfl

/-- Giving a group the entries that it has changes nothing. -/
theorem withHooks_self {remaining : List Json}
    (h : group.get? "hooks" = some (.arr remaining)) : withHooks group remaining = group := by
  cases group with
  | obj members => exact congrArg Json.obj (Assoc.store_of_lookup h)
  | _ => rfl

/-- What is left of a group: the same group with its unmarked entries, of which there are
some. -/
theorem stripped_eq_some_iff :
    stripped repr group = some kept ↔
      withHooks group ((entriesOf group).filter fun entry => !ours repr entry) = kept ∧
        ((entriesOf group).filter fun entry => !ours repr entry) ≠ [] := by
  unfold stripped
  dsimp only
  split
  · rename_i hempty
    simp [List.isEmpty_iff.mp hempty]
  · rename_i hempty
    rw [List.isEmpty_iff] at hempty
    simp [hempty]

theorem entriesOf_of_stripped (h : group.isObject = true)
    (hstripped : stripped repr group = some kept) :
    entriesOf kept = (entriesOf group).filter fun entry => !ours repr entry := by
  obtain ⟨rfl, -⟩ := stripped_eq_some_iff.mp hstripped
  exact entriesOf_withHooks h _

theorem stripped_idem (h : group.isObject = true) (hstripped : stripped repr group = some kept) :
    stripped repr kept = some kept := by
  have hentries := entriesOf_of_stripped h hstripped
  obtain ⟨rfl, hremaining⟩ := stripped_eq_some_iff.mp hstripped
  have hagain : ((entriesOf (withHooks group
      ((entriesOf group).filter fun entry => !ours repr entry))).filter
        fun entry => !ours repr entry) =
      (entriesOf group).filter fun entry => !ours repr entry := by
    rw [hentries, List.filter_filter]
    exact List.filter_congr fun entry _ => Bool.and_self _
  refine stripped_eq_some_iff.mpr ⟨?_, ?_⟩
  · rw [hagain]
    refine withHooks_self ?_
    rw [get?_withHooks h]
    rfl
  · rw [hagain]
    exact hremaining

theorem isGroup_of_stripped (h : IsGroup group) (hstripped : stripped repr group = some kept) :
    IsGroup kept := by
  obtain ⟨rfl, -⟩ := stripped_eq_some_iff.mp hstripped
  refine ⟨isObject_withHooks h.1 _, fun hooks hhooks => ?_⟩
  rw [get?_withHooks h.1] at hhooks
  refine ⟨_, (Option.some.inj hhooks).symm, fun entry hentry => ?_⟩
  exact isObject_of_mem_entriesOf h (List.mem_filter.mp hentry).1

theorem isGroup_ourGroup (emitterPath : String) : IsGroup (ourGroup emitterPath) := by
  refine ⟨rfl, fun hooks hhooks => ?_⟩
  refine ⟨[ourEntry emitterPath], (Option.some.inj hhooks).symm, fun entry hentry => ?_⟩
  rw [List.mem_singleton.mp hentry]
  rfl

/-- The installer's own entry is marked when its path is. -/
theorem ours_ourEntry (hmarked : inText hookMarker emitterPath = true) :
    ours repr (ourEntry emitterPath) = true := hmarked

theorem stripped_ourGroup (hmarked : inText hookMarker emitterPath = true) :
    stripped repr (ourGroup emitterPath) = none := by
  unfold stripped
  have hfilter :
      ((entriesOf (ourGroup emitterPath)).filter fun entry => !ours repr entry) = [] := by
    change ([ourEntry emitterPath].filter fun entry => !ours repr entry) = []
    rw [List.filter_singleton, ours_ourEntry hmarked]
    rfl
  rw [hfilter]
  rfl

/-! ## One event -/

theorem filterMap_stripped_idem {groups : List Json} (h : ∀ group ∈ groups, IsGroup group) :
    (groups.filterMap (stripped repr)).filterMap (stripped repr) =
      groups.filterMap (stripped repr) := by
  rw [List.filterMap_filterMap]
  refine List.filterMap_congr fun group hgroup => ?_
  cases hstripped : stripped repr group with
  | none => rfl
  | some kept => exact stripped_idem (h group hgroup).1 hstripped

/-- A later update of an event sees through an earlier one. -/
theorem editedGroups_absorb {groups : List Json} (h : ∀ group ∈ groups, IsGroup group)
    {earlierPath : String} (hmarked : inText hookMarker earlierPath = true)
    (earlierInstall : Bool) :
    editedGroups repr emitterPath install
        (editedGroups repr earlierPath earlierInstall groups) =
      editedGroups repr emitterPath install groups := by
  unfold editedGroups
  rw [List.filterMap_append, filterMap_stripped_idem h]
  cases earlierInstall with
  | false => simp
  | true => simp [stripped_ourGroup hmarked]

theorem groupsIn_editedEvent (value : Option Json) :
    groupsIn (editedEvent repr emitterPath install value) =
      editedGroups repr emitterPath install (groupsIn value) := by
  unfold editedEvent
  dsimp only
  split
  · rename_i hempty
    exact (List.isEmpty_iff.mp hempty).symm
  · rfl

/-- The update of an event depends on its groups only. -/
theorem editedEvent_congr {value other : Option Json}
    (h : editedGroups repr emitterPath install (groupsIn value) =
      editedGroups repr emitterPath install (groupsIn other)) :
    editedEvent repr emitterPath install value = editedEvent repr emitterPath install other := by
  unfold editedEvent
  rw [h]

theorem editedEvent_absorb {value : Option Json} (h : IsEvent value) {earlierPath : String}
    (hmarked : inText hookMarker earlierPath = true) (earlierInstall : Bool) :
    editedEvent repr emitterPath install (editedEvent repr earlierPath earlierInstall value) =
      editedEvent repr emitterPath install value := by
  refine editedEvent_congr ?_
  rw [groupsIn_editedEvent]
  exact editedGroups_absorb (fun group => isGroup_of_mem_groupsIn h) hmarked earlierInstall

theorem isEvent_editedEvent {value : Option Json} (h : IsEvent value) :
    IsEvent (editedEvent repr emitterPath install value) := by
  intro held hheld
  unfold editedEvent at hheld
  dsimp only at hheld
  split at hheld
  · cases hheld
  · refine ⟨_, (Option.some.inj hheld).symm, fun group hgroup => ?_⟩
    rcases List.mem_append.mp hgroup with hkept | hours
    · obtain ⟨source, hsource, hstripped⟩ := List.mem_filterMap.mp hkept
      exact isGroup_of_stripped (isGroup_of_mem_groupsIn h hsource) hstripped
    · split at hours
      · rw [List.mem_singleton.mp hours]
        exact isGroup_ourGroup emitterPath
      · exact absurd hours List.not_mem_nil

/-! ## One call after another -/

theorem Updated.isSettings (h : Updated repr emitterPath install settings result)
    (hsettings : IsSettings settings) : IsSettings result := by
  refine ⟨h.isObject, fun hooks hhooks => ?_⟩
  rw [h.tidy] at hhooks
  split at hhooks
  · cases hhooks
  · cases hhooks
    refine ⟨rfl, fun event value hvalue => ?_⟩
    have hevent := isEvent_of_isSettings hsettings event
    change (hooksOf result).lookup event = some value at hvalue
    rw [h.events event] at hvalue
    split at hvalue
    · exact isEvent_editedEvent hevent value hvalue
    · exact hevent value hvalue

/-- **A call sees through the call before it.** -/
theorem Updated.absorb {earlierPath : String} {earlierInstall : Bool} {middle : Json}
    (hsettings : IsSettings settings) (hmarked : inText hookMarker earlierPath = true)
    (hfirst : Updated repr earlierPath earlierInstall settings middle)
    (hsecond : Updated repr emitterPath install middle result) :
    Updated repr emitterPath install settings result where
  isObject := hsecond.isObject
  others name hname := (hsecond.others name hname).trans (hfirst.others name hname)
  tidy := hsecond.tidy
  events event := by
    rw [hsecond.events event, hfirst.events event]
    by_cases htarget : event ∈ targetHookEvents
    · rw [if_pos htarget, if_pos htarget, if_pos htarget,
        editedEvent_absorb (isEvent_of_isSettings hsettings event) hmarked]
    · rw [if_neg htarget, if_neg htarget, if_neg htarget]

theorem eq_nil_iff_lookup {members : List (String × Json)} :
    members = [] ↔ ∀ name, members.lookup name = none := by
  constructor
  · rintro rfl name
    rfl
  · intro h
    cases members with
    | nil => rfl
    | cons member rest =>
        have hfirst := h member.1
        rw [Assoc.lookup_cons_ite, BEq.refl] at hfirst
        cases hfirst

/-- The description of a call determines its result, up to the order of keys. -/
theorem Updated.same {other : Json} (h : Updated repr emitterPath install settings result)
    (hother : Updated repr emitterPath install settings other) : Json.Same result other := by
  have hlookup : ∀ event, (hooksOf result).lookup event = (hooksOf other).lookup event :=
    fun event => (h.events event).trans (hother.events event).symm
  have hhooks : Option.Rel Json.Same (result.get? "hooks") (other.get? "hooks") := by
    rw [h.tidy, hother.tidy]
    have hempty : (hooksOf result).isEmpty = (hooksOf other).isEmpty := by
      rw [Bool.eq_iff_iff, List.isEmpty_iff, List.isEmpty_iff, eq_nil_iff_lookup,
        eq_nil_iff_lookup]
      exact forall_congr' fun event => by rw [hlookup event]
    rw [hempty]
    split
    · exact .none
    · exact .some (Json.same_of_lookup_eq hlookup)
  have hnames : ∀ name, Option.Rel Json.Same (result.get? name) (other.get? name) := by
    intro name
    by_cases hname : name = "hooks"
    · rw [hname]
      exact hhooks
    · rw [h.others name hname, hother.others name hname]
      cases settings.get? name with
      | none => exact .none
      | some value => exact .some (.refl value)
  obtain ⟨members, rfl⟩ := Json.isObject_iff.mp h.isObject
  obtain ⟨otherMembers, rfl⟩ := Json.isObject_iff.mp hother.isObject
  exact .obj hnames

/-! ## Histories of calls -/

/-- One run of the installer: the emitter path and whether it installs or uninstalls. -/
structure Invocation where
  emitterPath : String
  install : Bool

variable (repr)

def invoke (settings : Json) (invocation : Invocation) : Except PyErr Json :=
  buildUpdatedSettings repr settings invocation.emitterPath invocation.install

/-- One run after another. -/
def invokeAll : List Invocation → Json → Except PyErr Json
  | [], settings => .ok settings
  | invocation :: rest, settings => do
      let updated ← invoke repr settings invocation
      invokeAll rest updated

/-- The marked hook entries under an event. -/
def markedEntries (settings : Json) (event : String) : List Json :=
  ((groupsIn ((hooksOf settings).lookup event)).flatMap entriesOf).filter (ours repr)

variable {repr}

theorem invokeAll_updated (h : IsSettings settings) {earlier : List Invocation}
    (last : Invocation)
    (hmarked : ∀ invocation ∈ earlier, inText hookMarker invocation.emitterPath = true) :
    ∃ final, invokeAll repr (earlier ++ [last]) settings = .ok final ∧
      Updated repr last.emitterPath last.install settings final := by
  -- on the calls before the last: the first of them is absorbed by all that follow
  induction earlier generalizing settings with
  | nil =>
      obtain ⟨final, hfinal, hupdated⟩ :=
        @build_updated repr last.emitterPath last.install settings h
      refine ⟨final, ?_, hupdated⟩
      rw [List.nil_append]
      unfold invokeAll invoke
      rw [hfinal]
      rfl
  | cons invocation rest ih =>
      obtain ⟨middle, hmiddle, hfirst⟩ :=
        @build_updated repr invocation.emitterPath invocation.install settings h
      obtain ⟨final, hfinal, hupdated⟩ := ih (hfirst.isSettings h) fun other hother =>
        hmarked other (List.mem_cons_of_mem _ hother)
      refine ⟨final, ?_, hfirst.absorb h (hmarked invocation List.mem_cons_self) hupdated⟩
      rw [List.cons_append]
      unfold invokeAll invoke
      rw [hmiddle]
      exact hfinal

/-- What was stripped holds no marked entry. -/
theorem filter_ours_stripped {groups : List Json} (h : ∀ group ∈ groups, IsGroup group) :
    ((groups.filterMap (stripped repr)).flatMap entriesOf).filter (ours repr) = [] := by
  rw [List.filter_eq_nil_iff]
  intro entry hentry
  obtain ⟨kept, hkept, hmem⟩ := List.mem_flatMap.mp hentry
  obtain ⟨group, hgroup, hstripped⟩ := List.mem_filterMap.mp hkept
  rw [entriesOf_of_stripped (h group hgroup).1 hstripped] at hmem
  have hunmarked := (List.mem_filter.mp hmem).2
  intro hours
  rw [hours] at hunmarked
  cases hunmarked

theorem markedEntries_of_updated (h : IsSettings settings)
    (hmarked : inText hookMarker emitterPath = true)
    (hupdated : Updated repr emitterPath install settings result) {event : String}
    (htarget : event ∈ targetHookEvents) :
    markedEntries repr result event = if install then [ourEntry emitterPath] else [] := by
  unfold markedEntries
  rw [hupdated.events event, if_pos htarget, groupsIn_editedEvent]
  unfold editedGroups
  rw [List.flatMap_append, List.filter_append, filter_ours_stripped fun group =>
    isGroup_of_mem_groupsIn (isEvent_of_isSettings h event), List.nil_append]
  cases install with
  | false => rfl
  | true =>
      change [ourEntry emitterPath].filter (ours repr) = [ourEntry emitterPath]
      rw [List.filter_singleton, ours_ourEntry hmarked]
      rfl

/-- **Absorption.**  Whatever was installed, upgraded and uninstalled before, the last call
leaves what it would have made of the original settings: one marked entry, its own, under
every target event, or none. -/
theorem invocations_absorb (h : IsSettings settings) (earlier : List Invocation)
    (last : Invocation)
    (hmarked : ∀ invocation ∈ earlier ++ [last],
      inText hookMarker invocation.emitterPath = true) :
    ∃ direct final, invoke repr settings last = .ok direct ∧
      invokeAll repr (earlier ++ [last]) settings = .ok final ∧ Json.Same final direct ∧
        ∀ event ∈ targetHookEvents, markedEntries repr final event =
          if last.install then [ourEntry last.emitterPath] else [] := by
  obtain ⟨direct, hdirect, hdirectUpdated⟩ :=
    @build_updated repr last.emitterPath last.install settings h
  obtain ⟨final, hfinal, hupdated⟩ := @invokeAll_updated repr settings h earlier last
    fun invocation hmem => hmarked invocation (List.mem_append_left _ hmem)
  have hlast := hmarked last (List.mem_append_right _ (List.mem_singleton_self last))
  exact ⟨direct, final, hdirect, hfinal, hupdated.same hdirectUpdated,
    fun event htarget => markedEntries_of_updated h hlast hupdated htarget⟩

/-! ### An upgrade and an uninstallation -/

/-- Settings with groups under `Stop` and nothing else. -/
def stopSettings (groups : List Json) : Json :=
  .obj [("hooks", .obj [("Stop", .arr groups)])]

theorem isSettings_stopSettings {groups : List Json} (h : ∀ group ∈ groups, IsGroup group) :
    IsSettings (stopSettings groups) := by
  refine ⟨rfl, fun hooks hhooks => ?_⟩
  cases hhooks
  refine ⟨rfl, fun event value hvalue => ?_⟩
  change (([("Stop", Json.arr groups)] : List (String × Json)).lookup event) = some value at hvalue
  rw [Assoc.lookup_cons_ite] at hvalue
  split at hvalue
  · exact ⟨groups, (Option.some.inj hvalue).symm, h⟩
  · cases hvalue

/-- Someone else's group. -/
def beepGroup : Json :=
  .obj
    [("matcher", .str "Bash"),
     ("hooks", .arr [.obj [("type", .str "command"), ("command", .str "beep")]])]

theorem isGroup_beepGroup : IsGroup beepGroup := by
  refine ⟨rfl, fun hooks hhooks => ?_⟩
  refine ⟨_, (Option.some.inj hhooks).symm, fun entry hentry => ?_⟩
  rw [List.mem_singleton.mp hentry]
  rfl

theorem isSettings_beep : IsSettings (stopSettings [beepGroup]) :=
  isSettings_stopSettings fun _ hgroup => List.mem_singleton.mp hgroup ▸ isGroup_beepGroup

theorem invocations_absorb_beep :
    ∃ direct final,
      invoke (fun _ => "") (stopSettings [beepGroup]) ⟨"claude-vo-emit", false⟩ = .ok direct ∧
      invokeAll (fun _ => "") ([⟨"/opt/claude-vo-emit", true⟩] ++ [⟨"claude-vo-emit", false⟩])
          (stopSettings [beepGroup]) = .ok final ∧
        Json.Same final direct ∧
          ∀ event ∈ targetHookEvents, markedEntries (fun _ => "") final event = [] :=
  invocations_absorb isSettings_beep [⟨"/opt/claude-vo-emit", true⟩] ⟨"claude-vo-emit", false⟩
    (by decide)

/-! ## What belongs to others -/

variable (repr)

/-- Every entry of the group is marked, and there is one. -/
def entirelyOurs (group : Json) : Bool :=
  !(entriesOf group).isEmpty && (entriesOf group).all (ours repr)

/-- A group with marked entries keeps its other fields and its unmarked entries, in order;
a group without stays as it is. -/
def Survives (group kept : Json) : Prop :=
  if (entriesOf group).any (ours repr) then
    (∀ name, name ≠ "hooks" → kept.get? name = group.get? name) ∧
      kept.get? "hooks" =
        some (.arr ((entriesOf group).filter fun entry => !ours repr entry))
  else kept = group

/-- Nothing of anyone else's is touched: the groups under a target event that are not
entirely the installer's all survive, in their order. -/
structure Untouched (settings result : Json) : Prop where
  topLevel : ∀ name, name ≠ "hooks" → result.get? name = settings.get? name
  otherEvents : ∀ event, event ∉ targetHookEvents →
    (hooksOf result).lookup event = (hooksOf settings).lookup event
  targetEvents : ∀ event ∈ targetHookEvents,
    ∃ survivors, survivors.Sublist (groupsIn ((hooksOf result).lookup event)) ∧
      List.Forall₂ (Survives repr)
        ((groupsIn ((hooksOf settings).lookup event)).filter fun group =>
          !entirelyOurs repr group) survivors

/-- Every group under a target event has a hook entry. -/
def NoBareGroup (settings : Json) : Prop :=
  ∀ event ∈ targetHookEvents, ∀ group ∈ groupsIn ((hooksOf settings).lookup event),
    entriesOf group ≠ []

variable {repr}

/-- A group with an entry is dropped exactly when all of them are marked. -/
theorem stripped_eq_none_iff (hentries : entriesOf group ≠ []) :
    stripped repr group = none ↔ entirelyOurs repr group = true := by
  unfold stripped entirelyOurs
  dsimp only
  rw [show (entriesOf group).isEmpty = false from
    eq_false_of_ne_true fun hempty => hentries (List.isEmpty_iff.mp hempty)]
  have hfilter : ((entriesOf group).filter fun entry => !ours repr entry).isEmpty = true ↔
      (entriesOf group).all (ours repr) = true := by
    rw [List.isEmpty_iff, List.filter_eq_nil_iff, List.all_eq_true]
    exact forall₂_congr fun entry _ => by cases ours repr entry <;> simp
  rw [Bool.not_false, Bool.true_and, ← hfilter]
  split
  · rename_i hempty
    exact iff_of_true rfl hempty
  · rename_i hempty
    exact iff_of_false (Option.some_ne_none _) hempty

theorem get?_hooks_of_entriesOf (hentries : entriesOf group ≠ []) :
    group.get? "hooks" = some (.arr (entriesOf group)) := by
  unfold entriesOf at hentries ⊢
  split
  · assumption
  · rename_i hother
    exact absurd (by split <;> first | rfl | exact absurd ‹_› (hother _)) hentries

/-- What is left of a group is what has to survive of it. -/
theorem survives_of_stripped (h : group.isObject = true) (hentries : entriesOf group ≠ [])
    (hstripped : stripped repr group = some kept) : Survives repr group kept := by
  obtain ⟨rfl, -⟩ := stripped_eq_some_iff.mp hstripped
  unfold Survives
  split
  · refine ⟨fun name hname => ?_, ?_⟩
    · rw [get?_withHooks h, beq_false_of_ne hname]
      rfl
    · rw [get?_withHooks h]
      rfl
  · rename_i hnone
    -- without marked entries the filter keeps them all
    have hall : ((entriesOf group).filter fun entry => !ours repr entry) = entriesOf group := by
      rw [List.filter_eq_self]
      intro entry hentry
      rw [Bool.not_eq_true']
      exact eq_false_of_ne_true fun hours => hnone (List.any_eq_true.mpr ⟨entry, hentry, hours⟩)
    rw [hall]
    exact withHooks_self (get?_hooks_of_entriesOf hentries)

theorem survivors_of_groups {groups : List Json} (h : ∀ group ∈ groups, IsGroup group)
    (hentries : ∀ group ∈ groups, entriesOf group ≠ []) :
    List.Forall₂ (Survives repr) (groups.filter fun group => !entirelyOurs repr group)
      (groups.filterMap (stripped repr)) := by
  induction groups with
  | nil => exact .nil
  | cons group rest ih =>
      have hrest := ih (fun other hother => h other (List.mem_cons_of_mem _ hother))
        fun other hother => hentries other (List.mem_cons_of_mem _ hother)
      have hfirst := hentries group List.mem_cons_self
      rw [List.filter_cons, List.filterMap_cons]
      cases hstripped : stripped repr group with
      | none =>
          rw [(stripped_eq_none_iff hfirst).mp hstripped]
          exact hrest
      | some kept =>
          have hkept : entirelyOurs repr group = false := by
            refine eq_false_of_ne_true fun hours => ?_
            rw [(stripped_eq_none_iff hfirst).mpr hours] at hstripped
            cases hstripped
          rw [hkept]
          exact .cons (survives_of_stripped (h group List.mem_cons_self).1 hfirst hstripped) hrest

/-- No group is written without hook entries. -/
theorem entriesOf_ne_nil_of_editedGroups {groups : List Json}
    (h : ∀ group ∈ groups, IsGroup group)
    (hgroup : group ∈ editedGroups repr emitterPath install groups) : entriesOf group ≠ [] := by
  rcases List.mem_append.mp hgroup with hkept | hours
  · obtain ⟨source, hsource, hstripped⟩ := List.mem_filterMap.mp hkept
    rw [entriesOf_of_stripped (h source hsource).1 hstripped]
    exact (stripped_eq_some_iff.mp hstripped).2
  · split at hours
    · rw [List.mem_singleton.mp hours]
      exact List.cons_ne_nil _ _
    · exact absurd hours List.not_mem_nil

theorem untouched_of_noBareGroup (h : IsSettings settings) (hentries : NoBareGroup settings)
    (hupdated : Updated repr emitterPath install settings result) :
    Untouched repr settings result where
  topLevel := hupdated.others
  otherEvents event hother := by rw [hupdated.events event, if_neg hother]
  targetEvents event htarget := by
    refine ⟨(groupsIn ((hooksOf settings).lookup event)).filterMap (stripped repr), ?_, ?_⟩
    -- the installer's own group, if any, comes after them
    · rw [hupdated.events event, if_pos htarget, groupsIn_editedEvent]
      exact List.sublist_append_left _ _
    · exact survivors_of_groups
        (fun group => isGroup_of_mem_groupsIn (isEvent_of_isSettings h event))
        (hentries event htarget)

theorem exists_survivor {groups survivors : List Json}
    (h : List.Forall₂ (Survives repr) groups survivors) (hgroup : group ∈ groups) :
    ∃ kept ∈ survivors, Survives repr group kept := by
  induction h with
  | nil => exact absurd hgroup List.not_mem_nil
  | cons hfirst _ ih =>
      rcases List.mem_cons.mp hgroup with rfl | hrest
      · exact ⟨_, List.mem_cons_self, hfirst⟩
      · obtain ⟨kept, hkept, hsurvives⟩ := ih hrest
        exact ⟨kept, List.mem_cons_of_mem _ hkept, hsurvives⟩

theorem noBareGroup_of_untouched (h : IsSettings settings)
    (hupdated : Updated repr emitterPath install settings result)
    (huntouched : Untouched repr settings result) : NoBareGroup settings := by
  intro event htarget group hgroup hbare
  obtain ⟨survivors, hsublist, hsurvive⟩ := huntouched.targetEvents event htarget
  have hothers : group ∈ (groupsIn ((hooksOf settings).lookup event)).filter fun group =>
      !entirelyOurs repr group := by
    refine List.mem_filter.mpr ⟨hgroup, ?_⟩
    unfold entirelyOurs
    rw [hbare]
    rfl
  -- without entries it would have to survive as it is, but no such group is written
  obtain ⟨kept, hkept, hsurvives⟩ := exists_survivor hsurvive hothers
  unfold Survives at hsurvives
  rw [hbare, List.any_nil, if_neg Bool.false_ne_true] at hsurvives
  have hwritten := hsublist.subset hkept
  rw [hupdated.events event, if_pos htarget, groupsIn_editedEvent, hsurvives] at hwritten
  exact entriesOf_ne_nil_of_editedGroups
    (fun group => isGroup_of_mem_groupsIn (isEvent_of_isSettings h event)) hwritten hbare

/-- **When nothing of anyone else's is touched.**  A call keeps every top-level key, every
event and every group that is not its own exactly when no group under a target event is
without hook entries. -/
theorem untouched_iff (h : IsSettings settings) (emitterPath : String) (install : Bool) :
    (∃ result, buildUpdatedSettings repr settings emitterPath install = .ok result ∧
        Untouched repr settings result) ↔ NoBareGroup settings := by
  obtain ⟨result, hresult, hupdated⟩ := @build_updated repr emitterPath install settings h
  constructor
  · rintro ⟨other, hother, huntouched⟩
    rw [hresult] at hother
    cases hother
    exact noBareGroup_of_untouched h hupdated huntouched
  · intro hentries
    exact ⟨result, hresult, untouched_of_noBareGroup h hentries hupdated⟩

theorem noBareGroup_beep : NoBareGroup (stopSettings [beepGroup]) := by
  intro event _ group hgroup
  change group ∈ groupsIn
    (([("Stop", Json.arr [beepGroup])] : List (String × Json)).lookup event) at hgroup
  rw [Assoc.lookup_cons_ite] at hgroup
  split at hgroup
  · rw [List.mem_singleton.mp hgroup]
    exact List.cons_ne_nil _ _
  · exact absurd hgroup List.not_mem_nil

theorem untouched_iff_beep :
    ∃ result,
      buildUpdatedSettings (fun _ => "") (stopSettings [beepGroup]) "claude-vo-emit" true =
          .ok result ∧ Untouched (fun _ => "") (stopSettings [beepGroup]) result :=
  (untouched_iff isSettings_beep "claude-vo-emit" true).mpr noBareGroup_beep

/-! ### A group without hooks -/

/-- Someone else's group, which has lost its last entry. -/
def bareGroup : Json :=
  .obj [("matcher", .str "Bash"), ("hooks", .arr [])]

theorem isGroup_bareGroup : IsGroup bareGroup := by
  refine ⟨rfl, fun hooks hhooks => ?_⟩
  exact ⟨[], (Option.some.inj hhooks).symm, fun entry hentry => absurd hentry List.not_mem_nil⟩

/-- The group is dropped by an installation. -/
theorem bareGroup_lost :
    ¬ ∀ (repr : Json → String) (settings : Json) (emitterPath : String) (install : Bool),
      IsSettings settings → inText hookMarker emitterPath = true →
        ∃ result, buildUpdatedSettings repr settings emitterPath install = .ok result ∧
          Untouched repr settings result := by
  intro hclaim
  have hsettings : IsSettings (stopSettings [bareGroup]) := isSettings_stopSettings fun group h =>
    List.mem_singleton.mp h ▸ isGroup_bareGroup
  obtain ⟨result, hresult, huntouched⟩ :=
    hclaim (fun _ => "") (stopSettings [bareGroup]) hookMarker true hsettings (by decide)
  obtain ⟨other, hother, hupdated⟩ :=
    @build_updated (fun _ => "") hookMarker true (stopSettings [bareGroup]) hsettings
  rw [hresult] at hother
  cases hother
  exact noBareGroup_of_untouched hsettings hupdated huntouched "Stop" (by decide) bareGroup
    List.mem_cons_self rfl

end Installer
end SiliconOffice
