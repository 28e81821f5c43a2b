import Mathlib.Data.List.Infix
import SiliconOffice.Python.Json

/-!
# The hook installer

`buildUpdatedSettings` merges the emitter's hook entry into a settings object or takes it
out again.  The settings are whatever JSON the file held, so every step can raise.

On well-formed settings nothing raises, and what happens to one matcher group is a pure
function (`stripped`), as is what happens to one event (`editedEvent`).  `Updated` says all
that one call does, name by name; `build_updated` is its proof and the only one that looks
into the loops.
-/

namespace SiliconOffice
namespace Installer

open Library Python

/-- `HOOK_MARKER`. -/
def hookMarker : String := "claude-vo-emit"

/-- `TARGET_HOOK_EVENTS`. -/
def targetHookEvents : List String :=
  ["SessionStart", "SessionEnd", "UserPromptSubmit", "PreToolUse", "PostToolUse",
   "PostToolUseFailure", "PermissionRequest", "Stop", "StopFailure", "SubagentStart",
   "SubagentStop"]

/-- `pattern in text`. -/
def inText (pattern text : String) : Bool :=
  decide (pattern.toList <:+: text.toList)

/-- `str(value)`; `repr` is what Python prints for anything but a string. -/
def strOf (repr : Json → String) : Json → String
  | .str text => text
  | value => repr value

/-- `for item in value`: a list yields its items, an object its names, a string its
characters. -/
def iterate : Json → Except PyErr (List Json)
  | .arr items => .ok items
  | .obj members => .ok (members.map fun member => .str member.1)
  | .str text => .ok (text.toList.map fun char => .str (String.singleton char))
  | _ => .error .typeError

variable (repr : Json → String)

/-- `_is_ours`. -/
def isOurs (hookEntry : Json) : Except PyErr Bool := do
  let command ← hookEntry.get "command" (.str "")
  .ok (inText hookMarker (strOf repr command))

/-- `[h for h in … if not _is_ours(h)]`. -/
def notOurs : List Json → Except PyErr (List Json)
  | [] => .ok []
  | hookEntry :: rest => do
      let ours ← isOurs repr hookEntry
      let others ← notOurs rest
      .ok (if ours then others else hookEntry :: others)

/-- `new_group = dict(group); new_group["hooks"] = remaining`. -/
def withHooks (group : Json) (remaining : List Json) : Json :=
  match group with
  | .obj members => .obj (Assoc.store "hooks" (.arr remaining) members)
  | other => other

/-- `_strip_ours`. -/
def stripOurs : List Json → Except PyErr (List Json)
  | [] => .ok []
  | group :: rest => do
      let hooks ← group.get "hooks" (.arr [])
      let hookEntries ← iterate hooks
      let remaining ← notOurs repr hookEntries
      let kept ← stripOurs rest
      -- a group with nothing remaining is dropped, whatever it held before
      .ok (if remaining.isEmpty then kept else withHooks group remaining :: kept)

/-- The entry that `_our_group` wraps. -/
def ourEntry (emitterPath : String) : Json :=
  .obj [("type", .str "command"), ("command", .str emitterPath), ("async", .bool true)]

/-- `_our_group`. -/
def ourGroup (emitterPath : String) : Json :=
  .obj [("hooks", .arr [ourEntry emitterPath])]

/-- The body of the loop over the target events. -/
def updateEvent (emitterPath : String) (install : Bool) (hooks : List (String × Json))
    (event : String) : Except PyErr (List (String × Json)) := do
  let groups ← iterate ((hooks.lookup event).getD (.arr []))
  let kept ← stripOurs repr groups
  let groups := if install then kept ++ [ourGroup emitterPath] else kept
  .ok
    (if !groups.isEmpty then Assoc.store event (.arr groups) hooks
    else if (hooks.lookup event).isSome then Assoc.discard event hooks
    else hooks)

/-- `for event in TARGET_HOOK_EVENTS: …`. -/
def updateEvents (emitterPath : String) (install : Bool) :
    List String → List (String × Json) → Except PyErr (List (String × Json))
  | [], hooks => .ok hooks
  | event :: rest, hooks => do
      let updated ← updateEvent repr emitterPath install hooks event
      updateEvents emitterPath install rest updated

/-- `build_updated_settings`. -/
def buildUpdatedSettings (settings : Json) (emitterPath : String) (install : Bool) :
    Except PyErr Json :=
  match settings with
  | .obj members =>
      match (members.lookup "hooks").getD (.obj []) with
      -- `setdefault` puts an empty `hooks` there, which is edited in place and popped when empty
      | .obj hooks => do
          let updated ← updateEvents repr emitterPath install targetHookEvents hooks
          .ok (.obj
            (if updated.isEmpty then Assoc.discard "hooks" members
            else Assoc.store "hooks" (.obj updated) members))
      | _ => .error .attributeError
  | _ => .error .attributeError

/-! ## Well-formed settings -/

/-- A matcher group: an object whose `hooks`, if present, are a list of objects. -/
def IsGroup (group : Json) : Prop :=
  group.isObject = true ∧
    ∀ hooks, group.get? "hooks" = some hooks →
      ∃ hookEntries, hooks = .arr hookEntries ∧ ∀ entry ∈ hookEntries, entry.isObject = true

/-- Settings whose `hooks`, if present, map event names to lists of matcher groups. -/
def IsSettings (settings : Json) : Prop :=
  settings.isObject = true ∧
    ∀ hooks, settings.get? "hooks" = some hooks →
      hooks.isObject = true ∧
        ∀ event value, hooks.get? event = some value →
          ∃ groups, value = .arr groups ∧ ∀ group ∈ groups, IsGroup group

/-- The hook entries of a group. -/
def entriesOf (group : Json) : List Json :=
  match group.get? "hooks" with
  | some (.arr hookEntries) => hookEntries
  | _ => []

/-- The groups in the value of an event. -/
def groupsIn : Option Json → List Json
  | some (.arr groups) => groups
  | _ => []

/-- The members of `hooks`. -/
def hooksOf (settings : Json) : List (String × Json) :=
  match settings.get? "hooks" with
  | some (.obj hooks) => hooks
  | _ => []

/-- Whether an entry carries the marker. -/
def ours (hookEntry : Json) : Bool :=
  inText hookMarker (strOf repr ((hookEntry.get? "command").getD (.str "")))

/-- What becomes of one group. -/
def stripped (group : Json) : Option Json :=
  let remaining := (entriesOf group).filter fun entry => !ours repr entry
  if remaining.isEmpty then none else some (withHooks group remaining)

/-- The groups of an event after the update. -/
def editedGroups (emitterPath : String) (install : Bool) (groups : List Json) : List Json :=
  groups.filterMap (stripped repr) ++ if install then [ourGroup emitterPath] else []

/-- What becomes of one target event. -/
def editedEvent (emitterPath : String) (install : Bool) (value : Option Json) : Option Json :=
  let groups := editedGroups repr emitterPath install (groupsIn value)
  if groups.isEmpty then none else some (.arr groups)

/-- All that one call does, name by name. -/
structure Updated (emitterPath : String) (install : Bool) (settings result : Json) : Prop where
  isObject : result.isObject = true
  others : ∀ name, name ≠ "hooks" → result.get? name = settings.get? name
  tidy : result.get? "hooks" =
    if (hooksOf result).isEmpty then none else some (.obj (hooksOf result))
  events : ∀ event, (hooksOf result).lookup event =
    if event ∈ targetHookEvents then
      editedEvent repr emitterPath install ((hooksOf settings).lookup event)
    else (hooksOf settings).lookup event

/-! ## The loops on well-formed settings -/

section loops

variable {repr : Json → String} {emitterPath : String} {install : Bool}

theorem isOurs_ok {hookEntry : Json} (h : hookEntry.isObject = true) :
    isOurs repr hookEntry = .ok (ours repr hookEntry) := by
  unfold isOurs
  rw [Json.get_of_isObject h]
  rfl

theorem notOurs_ok {hookEntries : List Json} (h : ∀ entry ∈ hookEntries, entry.isObject = true) :
    notOurs repr hookEntries = .ok (hookEntries.filter fun entry => !ours repr entry) := by
  induction hookEntries with
  | nil => rfl
  | cons hookEntry rest ih =>
      unfold notOurs
      rw [isOurs_ok (h hookEntry List.mem_cons_self),
        ih fun entry hentry => h entry (List.mem_cons_of_mem _ hentry), List.filter_cons]
      cases ours repr hookEntry <;> rfl

theorem iterate_hooks {group : Json} (h : IsGroup group) :
    iterate ((group.get? "hooks").getD (.arr [])) = .ok (entriesOf group) := by
  unfold entriesOf
  cases hhooks : group.get? "hooks" with
  | none => rfl
  | some hooks =>
      obtain ⟨hookEntries, rfl, -⟩ := h.2 hooks hhooks
      rfl

theorem isObject_of_mem_entriesOf {group entry : Json} (h : IsGroup group)
    (hentry : entry ∈ entriesOf group) : entry.isObject = true := by
  unfold entriesOf at hentry
  cases hhooks : group.get? "hooks" with
  | none =>
      rw [hhooks] at hentry
      exact absurd hentry List.not_mem_nil
  | some hooks =>
      obtain ⟨hookEntries, rfl, hobjects⟩ := h.2 hooks hhooks
      rw [hhooks] at hentry
      exact hobjects entry hentry

theorem stripOurs_ok {groups : List Json} (h : ∀ group ∈ groups, IsGroup group) :
    stripOurs repr groups = .ok (groups.filterMap (stripped repr)) := by
  induction groups with
  | nil => rfl
  | cons group rest ih =>
      have hgroup := h group List.mem_cons_self
      unfold stripOurs
      rw [Json.get_of_isObject hgroup.1, ih fun other hother =>
        h other (List.mem_cons_of_mem _ hother), List.filterMap_cons]
      change (do
        let hookEntries ← iterate ((group.get? "hooks").getD (.arr []))
        let remaining ← notOurs repr hookEntries
        let kept ← Except.ok (rest.filterMap (stripped repr))
        Except.ok (if remaining.isEmpty then kept else withHooks group remaining :: kept)) = _
      rw [iterate_hooks hgroup]
      change (do
        let remaining ← notOurs repr (entriesOf group)
        let kept ← Except.ok (rest.filterMap (stripped repr))
        Except.ok (if remaining.isEmpty then kept else withHooks group remaining :: kept)) = _
      rw [notOurs_ok fun entry => isObject_of_mem_entriesOf hgroup]
      unfold stripped
      dsimp only
      by_cases hremaining :
          ((entriesOf group).filter fun entry => !ours repr entry).isEmpty = true
      · rw [if_pos hremaining]
        exact congrArg Except.ok (if_pos hremaining)
      · rw [if_neg hremaining]
        exact congrArg Except.ok (if_neg hremaining)

/-- The value of an event is a list of matcher groups. -/
def IsEvent (value : Option Json) : Prop :=
  ∀ held, value = some held → ∃ groups, held = .arr groups ∧ ∀ group ∈ groups, IsGroup group

theorem isGroup_of_mem_groupsIn {value : Option Json} (h : IsEvent value) {group : Json}
    (hgroup : group ∈ groupsIn value) : IsGroup group := by
  cases value with
  | none => exact absurd hgroup List.not_mem_nil
  | some held =>
      obtain ⟨groups, rfl, hgroups⟩ := h held rfl
      exact hgroups group hgroup

theorem iterate_event {value : Option Json} (h : IsEvent value) :
    iterate (value.getD (.arr [])) = .ok (groupsIn value) := by
  cases value with
  | none => rfl
  | some held =>
      obtain ⟨groups, rfl, -⟩ := h held rfl
      rfl

/-- The loop body edits the one event. -/
theorem updateEvent_ok {hooks : List (String × Json)} {event : String}
    (h : IsEvent (hooks.lookup event)) :
    ∃ updated, updateEvent repr emitterPath install hooks event = .ok updated ∧
      ∀ other, updated.lookup other =
        if other == event then editedEvent repr emitterPath install (hooks.lookup event)
        else hooks.lookup other := by
  unfold updateEvent
  rw [iterate_event h]
  change ∃ updated, (do
    let kept ← stripOurs repr (groupsIn (hooks.lookup event))
    let groups := if install then kept ++ [ourGroup emitterPath] else kept
    Except.ok
      (if !groups.isEmpty then Assoc.store event (.arr groups) hooks
      else if (hooks.lookup event).isSome then Assoc.discard event hooks
      else hooks)) = Except.ok updated ∧ _
  rw [stripOurs_ok fun group => isGroup_of_mem_groupsIn h]
  have hgroups : (if install then
        (groupsIn (hooks.lookup event)).filterMap (stripped repr) ++ [ourGroup emitterPath]
      else (groupsIn (hooks.lookup event)).filterMap (stripped repr)) =
      editedGroups repr emitterPath install (groupsIn (hooks.lookup event)) := by
    unfold editedGroups
    cases install with
    | true => rfl
    | false => exact (List.append_nil _).symm
  refine ⟨_, rfl, fun other => ?_⟩
  rw [hgroups]
  unfold editedEvent
  dsimp only
  by_cases hempty :
      (editedGroups repr emitterPath install (groupsIn (hooks.lookup event))).isEmpty = true
  · rw [hempty, if_neg (by simp), if_pos rfl]
    by_cases hpresent : (hooks.lookup event).isSome = true
    · rw [if_pos hpresent]
      exact Assoc.lookup_discard event other hooks
    · -- nothing to delete: the event was not there
      rw [if_neg hpresent]
      split
      · rename_i hsame
        rw [beq_iff_eq.mp hsame]
        exact Option.not_isSome_iff_eq_none.mp hpresent
      · rfl
  · rw [eq_false_of_ne_true hempty, Bool.not_false, if_pos rfl, if_neg Bool.false_ne_true]
    exact Assoc.lookup_store event other _ hooks

/-- The loop edits each of its events once. -/
theorem updateEvents_ok {events : List String} (hdistinct : events.Nodup)
    {hooks : List (String × Json)} (h : ∀ event ∈ events, IsEvent (hooks.lookup event)) :
    ∃ updated, updateEvents repr emitterPath install events hooks = .ok updated ∧
      ∀ other, updated.lookup other =
        if other ∈ events then editedEvent repr emitterPath install (hooks.lookup other)
        else hooks.lookup other := by
  -- on the events: each turn edits its own event and leaves those to come alone
  induction events generalizing hooks with
  | nil => exact ⟨hooks, rfl, fun other => rfl⟩
  | cons event rest ih =>
      obtain ⟨hfresh, hrest⟩ := List.nodup_cons.mp hdistinct
      obtain ⟨first, hfirst, hedited⟩ := @updateEvent_ok repr emitterPath install hooks event
        (h event List.mem_cons_self)
      have hkept : ∀ other ∈ rest, first.lookup other = hooks.lookup other := by
        intro other hother
        have hne : (other == event) = false :=
          beq_false_of_ne fun hsame => hfresh (hsame ▸ hother)
        rw [hedited other, hne]
        rfl
      obtain ⟨updated, hupdated, hget⟩ := ih hrest fun other hother =>
        (hkept other hother).symm ▸ h other (List.mem_cons_of_mem _ hother)
      refine ⟨updated, ?_, fun other => ?_⟩
      · unfold updateEvents
        rw [hfirst]
        exact hupdated
      · rw [hget other]
        by_cases hother : other ∈ rest
        · rw [if_pos hother, if_pos (List.mem_cons_of_mem _ hother), hkept other hother]
        · rw [if_neg hother, hedited other]
          by_cases hsame : other = event
          · subst hsame
            rw [BEq.refl, if_pos rfl, if_pos List.mem_cons_self]
          · have hout : other ∉ event :: rest := by
              simp [hsame, hother]
            rw [beq_false_of_ne hsame, if_neg Bool.false_ne_true, if_neg hout]

end loops

/-! ## One call -/

theorem targetHookEvents_nodup : targetHookEvents.Nodup := by decide

section call

variable {repr : Json → String} {emitterPath : String} {install : Bool} {settings : Json}

theorem isEvent_of_isSettings (h : IsSettings settings) (event : String) :
    IsEvent ((hooksOf settings).lookup event) := by
  intro value hvalue
  unfold hooksOf at hvalue
  cases hhooks : settings.get? "hooks" with
  | none =>
      rw [hhooks] at hvalue
      cases hvalue
  | some hooks =>
      obtain ⟨hobject, hevents⟩ := h.2 hooks hhooks
      obtain ⟨members, rfl⟩ := Json.isObject_iff.mp hobject
      rw [hhooks] at hvalue
      exact hevents event value hvalue

/-- `hooks` after `setdefault`. -/
theorem getD_hooks (h : IsSettings settings) :
    (settings.get? "hooks").getD (.obj []) = .obj (hooksOf settings) := by
  unfold hooksOf
  cases hhooks : settings.get? "hooks" with
  | none => rfl
  | some hooks =>
      obtain ⟨members, rfl⟩ := Json.isObject_iff.mp (h.2 hooks hhooks).1
      rfl

/-- **All that `build_updated_settings` does** on well-formed settings. -/
theorem build_updated (h : IsSettings settings) :
    ∃ result, buildUpdatedSettings repr settings emitterPath install = .ok result ∧
      Updated repr emitterPath install settings result := by
  obtain ⟨members, rfl⟩ := Json.isObject_iff.mp h.1
  obtain ⟨updated, hupdated, hget⟩ := @updateEvents_ok repr emitterPath install targetHookEvents
    targetHookEvents_nodup (hooksOf (.obj members)) fun event _ => isEvent_of_isSettings h event
  have hrun : buildUpdatedSettings repr (.obj members) emitterPath install =
      .ok (.obj
        (if updated.isEmpty then Assoc.discard "hooks" members
        else Assoc.store "hooks" (.obj updated) members)) := by
    unfold buildUpdatedSettings
    dsimp only
    rw [show (members.lookup "hooks").getD (.obj []) = .obj (hooksOf (.obj members)) from
      getD_hooks h]
    dsimp only
    rw [hupdated]
    rfl
  by_cases hempty : updated.isEmpty = true
  · rw [if_pos hempty] at hrun
    have hhooks : Json.get? "hooks" (.obj (Assoc.discard "hooks" members)) = none :=
      (Assoc.lookup_discard "hooks" "hooks" members).trans (if_pos (BEq.refl _))
    have hnone : hooksOf (.obj (Assoc.discard "hooks" members)) = [] := by
      unfold hooksOf
      rw [hhooks]
    refine ⟨_, hrun, rfl, fun name hname => ?_, ?_, fun event => ?_⟩
    · exact (Assoc.lookup_discard "hooks" name members).trans
        (if_neg fun hsame => hname (beq_iff_eq.mp hsame))
    · rw [hhooks, hnone]
      rfl
    · rw [hnone, ← hget event, List.isEmpty_iff.mp hempty]
  · rw [if_neg hempty] at hrun
    have hhooks : Json.get? "hooks" (.obj (Assoc.store "hooks" (.obj updated) members)) =
        some (.obj updated) :=
      (Assoc.lookup_store "hooks" "hooks" (Json.obj updated) members).trans (if_pos (BEq.refl _))
    have hsome : hooksOf (.obj (Assoc.store "hooks" (.obj updated) members)) = updated := by
      unfold hooksOf
      rw [hhooks]
    refine ⟨_, hrun, rfl, fun name hname => ?_, ?_, fun event => ?_⟩
    · exact (Assoc.lookup_store "hooks" name (Json.obj updated) members).trans
        (if_neg fun hsame => hname (beq_iff_eq.mp hsame))
    · rw [hhooks, hsome, if_neg hempty]
    · rw [hsome]
      exact hget event

end call

end Installer
end SiliconOffice
