import SiliconOffice.Installer.Merge

/-!
# What uninstalling takes back

Install and uninstall make and drop keys and groups by whether they are empty.  What was
empty in the user's file already is dropped with the rest: `uninstall_undoes_iff` says that
the round trip gives the settings back exactly when nothing in them is empty.

The recogniser looks for the marker in the command, the entry is written with whatever path
was given.  `installs_undone_iff` says that an installation can be taken back exactly when
the path carries the marker, as the default path does.
-/

namespace SiliconOffice
namespace Installer

open Library Python

variable {repr : Json → String} {emitterPath : String} {install : Bool}
  {settings result group : Json}

/-! ## Uninstalling after installing -/

variable (repr) in
/-- No entry under any event carries the marker. -/
def Unmarked (settings : Json) : Prop :=
  ∀ event, markedEntries repr settings event = []

/-- No part of the settings that an update looks into is there without content: not
`hooks`, not the list of a target event, not the entries of a group in it. -/
structure NothingEmpty (settings : Json) : Prop where
  hooks : settings.get? "hooks" ≠ some (.obj [])
  events : ∀ event ∈ targetHookEvents, (hooksOf settings).lookup event ≠ some (.arr [])
  groups : NoBareGroup settings

/-- An unmarked group with entries is kept as it is. -/
theorem stripped_eq_self (hentries : entriesOf group ≠ [])
    (hunmarked : ∀ entry ∈ entriesOf group, ours repr entry = false) :
    stripped repr group = some group := by
  have hall : ((entriesOf group).filter fun entry => !ours repr entry) = entriesOf group :=
    List.filter_eq_self.mpr fun entry hentry => by rw [hunmarked entry hentry, Bool.not_false]
  refine stripped_eq_some_iff.mpr ⟨?_, ?_⟩
  · rw [hall]
    exact withHooks_self (get?_hooks_of_entriesOf hentries)
  · rw [hall]
    exact hentries

theorem ours_of_unmarked (h : Unmarked repr settings) {event : String}
    (hgroup : group ∈ groupsIn ((hooksOf settings).lookup event)) {entry : Json}
    (hentry : entry ∈ entriesOf group) : ours repr entry = false := by
  refine eq_false_of_ne_true fun hours => ?_
  have hmarked : entry ∈ markedEntries repr settings event :=
    List.mem_filter.mpr ⟨List.mem_flatMap.mpr ⟨group, hgroup, hentry⟩, hours⟩
  rw [h event] at hmarked
  exact List.not_mem_nil hmarked

/-- Settings without a marked or an empty part are what an uninstallation makes of them. -/
theorem updated_self (h : IsSettings settings) (hunmarked : Unmarked repr settings)
    (hfull : NothingEmpty settings) : Updated repr emitterPath false settings settings where
  isObject := h.1
  others _ _ := rfl
  tidy := by
    cases hhooks : settings.get? "hooks" with
    | none =>
        have hnone : hooksOf settings = [] := by
          unfold hooksOf
          rw [hhooks]
        rw [hnone]
        rfl
    | some hooks =>
        obtain ⟨members, rfl⟩ := Json.isObject_iff.mp (h.2 hooks hhooks).1
        have hsome : hooksOf settings = members := by
          unfold hooksOf
          rw [hhooks]
        have hmembers : members ≠ [] := fun hempty => hfull.hooks (hempty ▸ hhooks)
        rw [hsome, if_neg fun hempty => hmembers (List.isEmpty_iff.mp hempty)]
  events event := by
    split
    · rename_i htarget
      cases hvalue : (hooksOf settings).lookup event with
      | none => rfl
      | some value =>
          obtain ⟨groups, rfl, -⟩ := isEvent_of_isSettings h event value hvalue
          have hkept : editedGroups repr emitterPath false groups = groups := by
            refine (List.append_nil _).trans ?_
            calc groups.filterMap (stripped repr)
                = groups.filterMap some := List.filterMap_congr fun group hgroup => by
                  have hmem : group ∈ groupsIn ((hooksOf settings).lookup event) := by
                    rw [hvalue]
                    exact hgroup
                  exact stripped_eq_self (hfull.groups event htarget group hmem) fun entry =>
                    ours_of_unmarked hunmarked hmem
              _ = groups := List.filterMap_some ..
          have hgroups : groups ≠ [] := fun hempty => hfull.events event htarget (hempty ▸ hvalue)
          unfold editedEvent
          dsimp only [groupsIn]
          rw [hkept, if_neg fun hempty => hgroups (List.isEmpty_iff.mp hempty)]
    · rfl

/-- An event that an uninstallation leaves as it was had groups, all of them with entries. -/
theorem full_of_same {groups : List Json} (h : ∀ group ∈ groups, IsGroup group)
    (hsame : Option.Rel Json.Same (editedEvent repr emitterPath false (some (.arr groups)))
      (some (.arr groups))) :
    groups ≠ [] ∧ ∀ group ∈ groups, entriesOf group ≠ [] := by
  have hedited : editedGroups repr emitterPath false groups =
      groups.filterMap (stripped repr) := List.append_nil _
  unfold editedEvent at hsame
  dsimp only [groupsIn] at hsame
  rw [hedited] at hsame
  split at hsame
  · cases hsame
  · rename_i hkept
    cases hsame with
    | some hvalue =>
        have hlength := hvalue.length_eq
        constructor
        · rintro rfl
          exact hkept rfl
        · intro group hgroup hbare
          -- a group without entries is dropped, so the list gets shorter
          have hsome := List.filterMap_length_eq_length.mp hlength group hgroup
          unfold stripped at hsome
          rw [hbare] at hsome
          cases hsome

theorem get?_hooks_of_lookup (h : IsSettings settings) {event : String} {value : Json}
    (hvalue : (hooksOf settings).lookup event = some value) :
    settings.get? "hooks" = some (.obj (hooksOf settings)) := by
  have hget := getD_hooks h
  cases hhooks : settings.get? "hooks" with
  | none =>
      unfold hooksOf at hvalue
      rw [hhooks] at hvalue
      cases hvalue
  | some hooks =>
      rw [hhooks] at hget
      exact congrArg some hget

/-- Settings that an uninstallation leaves as they were have no empty list under a target
event and no group without entries in it. -/
theorem full_of_updated (h : IsSettings settings)
    (hupdated : Updated repr emitterPath false settings result)
    (hsame : Json.Same result settings) {event : String} (htarget : event ∈ targetHookEvents)
    {value : Json} (hvalue : (hooksOf settings).lookup event = some value) :
    ∃ groups, value = .arr groups ∧ groups ≠ [] ∧ ∀ group ∈ groups, entriesOf group ≠ [] := by
  obtain ⟨groups, rfl, hgroups⟩ := isEvent_of_isSettings h event value hvalue
  have hrel := hsame.get? "hooks"
  rw [get?_hooks_of_lookup h hvalue, hupdated.tidy] at hrel
  split at hrel
  · cases hrel
  · cases hrel with
    | some hobjects =>
        have hevent := hobjects.get? event
        change Option.Rel Json.Same ((hooksOf result).lookup event)
          ((hooksOf settings).lookup event) at hevent
        rw [hupdated.events event, if_pos htarget, hvalue] at hevent
        exact ⟨groups, rfl, full_of_same hgroups hevent⟩

theorem nothingEmpty_of_same (h : IsSettings settings)
    (hupdated : Updated repr emitterPath false settings result)
    (hsame : Json.Same result settings) : NothingEmpty settings := by
  refine ⟨fun hempty => ?_, fun event htarget hempty => ?_, fun event htarget group hgroup => ?_⟩
  · have hrel := hsame.get? "hooks"
    have hnone : hooksOf settings = [] := by
      unfold hooksOf
      rw [hempty]
    have hresult : hooksOf result = [] := eq_nil_iff_lookup.mpr fun event => by
      rw [hupdated.events event, hnone]
      split
      · rfl
      · rfl
    rw [hempty, hupdated.tidy, hresult] at hrel
    cases hrel
  · obtain ⟨groups, hvalue, hgroups, -⟩ := full_of_updated h hupdated hsame htarget hempty
    cases hvalue
    exact hgroups rfl
  · cases hvalue : (hooksOf settings).lookup event with
    | none =>
        rw [hvalue] at hgroup
        exact absurd hgroup List.not_mem_nil
    | some value =>
        obtain ⟨groups, rfl, -, hentries⟩ := full_of_updated h hupdated hsame htarget hvalue
        rw [hvalue] at hgroup
        exact hentries group hgroup

/-- **When uninstalling undoes installing.**  The round trip gives the settings back, up to
the order of keys, exactly when no part of them was there without content. -/
theorem uninstall_undoes_iff (h : IsSettings settings) (hunmarked : Unmarked repr settings)
    (hmarked : inText hookMarker emitterPath = true) :
    (∃ installed final, buildUpdatedSettings repr settings emitterPath true = .ok installed ∧
        buildUpdatedSettings repr installed emitterPath false = .ok final ∧
          Json.Same final settings) ↔ NothingEmpty settings := by
  obtain ⟨installed, hinstalled, hfirst⟩ := @build_updated repr emitterPath true settings h
  obtain ⟨final, hfinal, hsecond⟩ :=
    @build_updated repr emitterPath false installed (hfirst.isSettings h)
  have hupdated := hfirst.absorb h hmarked hsecond
  constructor
  · rintro ⟨other, last, hother, hlast, hsame⟩
    rw [hinstalled] at hother
    cases hother
    rw [hfinal] at hlast
    cases hlast
    exact nothingEmpty_of_same h hupdated hsame
  · intro hfull
    exact ⟨installed, final, hinstalled, hfinal, hupdated.same (updated_self h hunmarked hfull)⟩

/-! ### An event without groups -/

theorem unmarked_stopSettings {groups : List Json}
    (h : ((groups.flatMap entriesOf).filter (ours repr)) = []) :
    Unmarked repr (stopSettings groups) := by
  intro event
  show ((groupsIn (([("Stop", Json.arr groups)] : List (String × Json)).lookup event)).flatMap
    entriesOf).filter (ours repr) = []
  rw [Assoc.lookup_cons_ite]
  split
  · exact h
  · rfl

/-- An event with an empty list is gone after the round trip. -/
theorem emptyEvent_lost :
    ¬ ∀ (repr : Json → String) (settings : Json) (emitterPath : String),
      IsSettings settings → Unmarked repr settings → inText hookMarker emitterPath = true →
        ∃ installed final, buildUpdatedSettings repr settings emitterPath true = .ok installed ∧
          buildUpdatedSettings repr installed emitterPath false = .ok final ∧
            Json.Same final settings := by
  intro hclaim
  have hsettings : IsSettings (stopSettings []) :=
    isSettings_stopSettings fun group h => absurd h List.not_mem_nil
  have hunmarked : Unmarked (fun _ => "") (stopSettings []) := unmarked_stopSettings rfl
  obtain ⟨installed, final, hinstalled, hfinal, hsame⟩ :=
    hclaim (fun _ => "") (stopSettings []) hookMarker hsettings hunmarked (by decide)
  obtain ⟨first, hfirst, hupdated⟩ :=
    @build_updated (fun _ => "") hookMarker true (stopSettings []) hsettings
  obtain ⟨last, hlast, hagain⟩ :=
    @build_updated (fun _ => "") hookMarker false first (hupdated.isSettings hsettings)
  cases Except.ok.inj (hinstalled.symm.trans hfirst)
  cases Except.ok.inj (hfinal.symm.trans hlast)
  exact (nothingEmpty_of_same hsettings
    (hupdated.absorb hsettings (by decide) hagain) hsame).events "Stop" (by decide) rfl

theorem uninstall_undoes_beep :
    ∃ installed final,
      buildUpdatedSettings (fun _ => "") (stopSettings [beepGroup]) "claude-vo-emit" true =
          .ok installed ∧
        buildUpdatedSettings (fun _ => "") installed "claude-vo-emit" false = .ok final ∧
          Json.Same final (stopSettings [beepGroup]) :=
  (uninstall_undoes_iff isSettings_beep (unmarked_stopSettings (by decide)) (by decide)).mpr
    { hooks := fun h => by cases h
      events := by
        intro event _ hempty
        change ([("Stop", Json.arr [beepGroup])] : List (String × Json)).lookup event = _ at hempty
        rw [Assoc.lookup_cons_ite] at hempty
        split at hempty <;> cases hempty
      groups := noBareGroup_beep }

/-! ## Paths without the marker -/

/-- `os.path.join` of a directory and a plain file name. -/
def joinPath (directory name : String) : String :=
  if directory = "" ∨ directory.toList.getLast? = some '/' then directory ++ name
  else directory ++ "/" ++ name

/-- `_default_emitter_path`, next to the interpreter. -/
def defaultEmitterPath (binDir : String) : String :=
  joinPath binDir "claude-vo-emit"

/-- The path that `main` goes on with: `args.emitter_path or _default_emitter_path()`. -/
def chosenEmitterPath (binDir : String) (emitterPath : Option String) : String :=
  match emitterPath with
  | some path => if path = "" then defaultEmitterPath binDir else path
  | none => defaultEmitterPath binDir

/-- Whatever path the option names carries the marker. -/
def OptionMarked (emitterPath : Option String) : Prop :=
  ∀ path, emitterPath = some path → path ≠ "" → inText hookMarker path = true

/-- The hook entries under an event. -/
def entriesAt (settings : Json) (event : String) : List Json :=
  (groupsIn ((hooksOf settings).lookup event)).flatMap entriesOf

/-- Some event has a hook entry with that command. -/
def Carries (settings : Json) (command : String) : Prop :=
  ∃ event, ∃ entry ∈ entriesAt settings event, entry.get? "command" = some (.str command)

theorem inText_append_right (before name : String) : inText name (before ++ name) = true := by
  unfold inText
  rw [decide_eq_true_iff, String.toList_append]
  exact (List.suffix_append ..).isInfix

theorem marked_defaultEmitterPath (binDir : String) :
    inText hookMarker (defaultEmitterPath binDir) = true := by
  unfold defaultEmitterPath joinPath
  split <;> exact inText_append_right _ hookMarker

/-- The path that is installed carries the marker exactly when the option's does. -/
theorem marked_chosen_iff (binDir : String) (path? : Option String) :
    inText hookMarker (chosenEmitterPath binDir path?) = true ↔ OptionMarked path? := by
  unfold chosenEmitterPath OptionMarked
  cases path? with
  | none => exact iff_of_true (marked_defaultEmitterPath binDir) fun path h => by cases h
  | some path =>
      by_cases hempty : path = ""
      · dsimp only
        rw [if_pos hempty]
        refine iff_of_true (marked_defaultEmitterPath binDir) fun other hother hne => ?_
        cases hother
        exact absurd hempty hne
      · dsimp only
        rw [if_neg hempty]
        constructor
        · rintro hmarked other ⟨⟩ -
          exact hmarked
        · exact fun h => h path rfl hempty

theorem ours_of_command {entry : Json} {command : String}
    (h : entry.get? "command" = some (.str command)) :
    ours repr entry = inText hookMarker command := by
  unfold ours
  rw [h]
  rfl

/-- **The entries after a call**: under a target event those that were unmarked, and the one
that the call installs. -/
theorem mem_entriesAt_iff (h : IsSettings settings)
    (hupdated : Updated repr emitterPath install settings result) (event : String) (entry : Json) :
    entry ∈ entriesAt result event ↔
      if event ∈ targetHookEvents then
        (entry ∈ entriesAt settings event ∧ ours repr entry = false) ∨
          (install = true ∧ entry = ourEntry emitterPath)
      else entry ∈ entriesAt settings event := by
  unfold entriesAt
  rw [hupdated.events event]
  split
  · rw [groupsIn_editedEvent]
    unfold editedGroups
    rw [List.flatMap_append, List.mem_append]
    refine or_congr ?_ ?_
    · have hgroups : ∀ group ∈ groupsIn ((hooksOf settings).lookup event),
          group.isObject = true := fun group hgroup =>
        (isGroup_of_mem_groupsIn (isEvent_of_isSettings h event) hgroup).1
      rw [List.mem_flatMap, List.mem_flatMap]
      constructor
      · rintro ⟨kept, hkept, hentry⟩
        obtain ⟨group, hgroup, hstripped⟩ := List.mem_filterMap.mp hkept
        rw [entriesOf_of_stripped (hgroups group hgroup) hstripped] at hentry
        obtain ⟨hentry, hunmarked⟩ := List.mem_filter.mp hentry
        exact ⟨⟨group, hgroup, hentry⟩, by simpa using hunmarked⟩
      · rintro ⟨⟨group, hgroup, hentry⟩, hunmarked⟩
        have hremains : entry ∈ (entriesOf group).filter fun entry => !ours repr entry :=
          List.mem_filter.mpr ⟨hentry, by rw [hunmarked, Bool.not_false]⟩
        have hstripped : stripped repr group = some (withHooks group
            ((entriesOf group).filter fun entry => !ours repr entry)) :=
          stripped_eq_some_iff.mpr ⟨rfl, List.ne_nil_of_mem hremains⟩
        refine ⟨_, List.mem_filterMap.mpr ⟨group, hgroup, hstripped⟩, ?_⟩
        rw [entriesOf_withHooks (hgroups group hgroup)]
        exact hremains
    · cases install with
      | false => simp
      | true =>
          show entry ∈ [ourEntry emitterPath] ↔ _
          simp
  · rfl

/-- An entry without the marker stays, whatever is run. -/
theorem carries_of_updated (h : IsSettings settings) {command : String}
    (hunmarked : inText hookMarker command = false) (hcarries : Carries settings command)
    (hupdated : Updated repr emitterPath install settings result) : Carries result command := by
  obtain ⟨event, entry, hentry, hcommand⟩ := hcarries
  refine ⟨event, entry, (mem_entriesAt_iff h hupdated event entry).mpr ?_, hcommand⟩
  split
  · exact .inl ⟨hentry, (ours_of_command hcommand).trans hunmarked⟩
  · exact hentry

theorem carries_of_invokeAll (h : IsSettings settings) {command : String}
    (hunmarked : inText hookMarker command = false) (hcarries : Carries settings command)
    (invocations : List Invocation) :
    ∃ final, invokeAll repr invocations settings = .ok final ∧ Carries final command := by
  induction invocations generalizing settings with
  | nil => exact ⟨settings, rfl, hcarries⟩
  | cons invocation rest ih =>
      obtain ⟨middle, hmiddle, hupdated⟩ :=
        @build_updated repr invocation.emitterPath invocation.install settings h
      obtain ⟨final, hfinal, hstays⟩ := ih (hupdated.isSettings h)
        (carries_of_updated h hunmarked hcarries hupdated)
      refine ⟨final, ?_, hstays⟩
      unfold invokeAll invoke
      rw [hmiddle]
      exact hfinal

/-- An installation adds its entry. -/
theorem carries_of_install (h : IsSettings settings)
    (hupdated : Updated repr emitterPath true settings result) : Carries result emitterPath := by
  refine ⟨"Stop", ourEntry emitterPath, (mem_entriesAt_iff h hupdated "Stop" _).mpr ?_, rfl⟩
  rw [if_pos (by decide)]
  exact .inr ⟨rfl, rfl⟩

/-- An uninstallation adds nothing. -/
theorem not_carries_of_uninstall (h : IsSettings settings) {command : String}
    (hfree : ¬ Carries settings command)
    (hupdated : Updated repr emitterPath false settings result) : ¬ Carries result command := by
  rintro ⟨event, entry, hentry, hcommand⟩
  rw [mem_entriesAt_iff h hupdated event entry] at hentry
  split at hentry
  · rcases hentry with ⟨hbefore, -⟩ | ⟨hinstall, -⟩
    · exact hfree ⟨event, entry, hbefore, hcommand⟩
    · cases hinstall
  · exact hfree ⟨event, entry, hentry, hcommand⟩

/-- So many installations with one path, and an uninstallation. -/
def installsThenUninstall (emitterPath : String) (installs : Nat) : List Invocation :=
  List.replicate installs ⟨emitterPath, true⟩ ++ [⟨emitterPath, false⟩]

/-- **When an installation can be taken back.**  After any number of installations with the
path that the option names, an uninstallation leaves no entry with that command exactly when
nothing was installed or the path carries the marker. -/
theorem installs_undone_iff (binDir : String) (path? : Option String) (h : IsSettings settings)
    (hfree : ¬ Carries settings (chosenEmitterPath binDir path?)) (installs : Nat) :
    (∃ final, invokeAll repr
          (installsThenUninstall (chosenEmitterPath binDir path?) installs) settings = .ok final ∧
        ¬ Carries final (chosenEmitterPath binDir path?)) ↔
      installs = 0 ∨ OptionMarked path? := by
  rw [← marked_chosen_iff binDir]
  generalize chosenEmitterPath binDir path? = emitterPath at hfree ⊢
  unfold installsThenUninstall
  constructor
  · rintro ⟨final, hfinal, hgone⟩
    cases installs with
    | zero => exact .inl rfl
    | succ installs =>
        refine .inr (by_contra fun hunmarked => hgone ?_)
        -- the first installation adds an entry, and nothing ever takes it away
        obtain ⟨first, hfirst, hupdated⟩ := @build_updated repr emitterPath true settings h
        obtain ⟨last, hlast, hcarries⟩ := @carries_of_invokeAll repr first
          (hupdated.isSettings h) emitterPath (eq_false_of_ne_true hunmarked)
          (carries_of_install h hupdated)
          (List.replicate installs ⟨emitterPath, true⟩ ++ [⟨emitterPath, false⟩])
        rw [List.replicate_succ, List.cons_append] at hfinal
        unfold invokeAll invoke at hfinal
        rw [hfirst, ok_bind, hlast] at hfinal
        cases hfinal
        exact hcarries
  · intro hundone
    have hmarked : ∀ invocation ∈ List.replicate installs (⟨emitterPath, true⟩ : Invocation),
        inText hookMarker invocation.emitterPath = true := by
      intro invocation hmem
      obtain ⟨hne, rfl⟩ := List.mem_replicate.mp hmem
      exact hundone.resolve_left hne
    obtain ⟨final, hfinal, hupdated⟩ :=
      invokeAll_updated h (⟨emitterPath, false⟩ : Invocation) hmarked
    exact ⟨final, hfinal, not_carries_of_uninstall h hfree hupdated⟩

/-! ### A wrapper script -/

theorem isSettings_empty : IsSettings (.obj []) :=
  ⟨rfl, fun hooks hhooks => by cases hhooks⟩

theorem not_carries_empty (command : String) : ¬ Carries (.obj []) command := by
  rintro ⟨event, entry, hentry, -⟩
  exact absurd hentry List.not_mem_nil

/-- A path without the marker stays installed. -/
theorem wrapper_not_undone :
    ¬ ∀ (repr : Json → String) (settings : Json) (binDir : String) (path? : Option String)
        (installs : Nat), IsSettings settings →
      ¬ Carries settings (chosenEmitterPath binDir path?) →
        ∃ final, invokeAll repr
            (installsThenUninstall (chosenEmitterPath binDir path?) installs) settings =
              .ok final ∧ ¬ Carries final (chosenEmitterPath binDir path?) := by
  intro hclaim
  obtain ⟨final, hfinal, hgone⟩ := hclaim (fun _ => "") (.obj []) "/opt/venv/bin"
    (some "/opt/emit.sh") 1 isSettings_empty (not_carries_empty _)
  obtain ⟨first, hfirst, hupdated⟩ :=
    @build_updated (fun _ => "") "/opt/emit.sh" true (.obj []) isSettings_empty
  obtain ⟨last, hlast, hcarries⟩ := @carries_of_invokeAll (fun _ => "") first
    (hupdated.isSettings isSettings_empty) "/opt/emit.sh" (by decide)
    (carries_of_install isSettings_empty hupdated) [⟨"/opt/emit.sh", false⟩]
  change invokeAll (fun _ => "") (⟨"/opt/emit.sh", true⟩ :: [⟨"/opt/emit.sh", false⟩]) (.obj []) =
    .ok final at hfinal
  unfold invokeAll invoke at hfinal
  rw [hfirst, ok_bind, hlast] at hfinal
  cases hfinal
  exact hgone hcarries

/-- The default path, installed twice. -/
theorem default_undone :
    ∃ final, invokeAll (fun _ => "")
        (installsThenUninstall (chosenEmitterPath "/opt/venv/bin" none) 2) (.obj []) =
          .ok final ∧ ¬ Carries final (chosenEmitterPath "/opt/venv/bin" none) :=
  (installs_undone_iff "/opt/venv/bin" none isSettings_empty (not_carries_empty _) 2).mpr
    (.inr fun path h => by cases h)

end Installer
end SiliconOffice
