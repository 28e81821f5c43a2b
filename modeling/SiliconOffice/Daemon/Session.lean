import SiliconOffice.Daemon.WellTyped

/-!
# The record of one session along its events

`handle` is what one event makes of the record that the registry holds for its session:
a tracked record keeps the edits made before an exception, a new one is kept only when
nothing raised.  `recordOf` is the record after a list of events, from none.

`effect` is the edit of one event in closed form, `handle_some` and `handle_none` say all
that an event can do.  What an event shows and what it does to the stack of labels depend on
nothing but what was shown before and that stack (`sameActivity_effect`,
`labelStack_effect`).
-/

namespace SiliconOffice
namespace Daemon

open Library Python Common

/-! ## The edit of one event -/

/-- What `enter` leaves of a record: the state is assigned before the label is built. -/
def entered (state : AgentState) (label : Except PyErr String) (now : ℚ)
    (record : AgentRecord) : AgentRecord :=
  match label with
  | .ok text => { record with state := state, actionLabel := text, stateSince := now }
  | .error _ => { record with state := state }

variable (repr : Json → Except PyErr String)

/-- What the branch of an event leaves of a record. -/
def effect (event : HookEvent) (now : ℚ) (record : AgentRecord) : AgentRecord :=
  match HookName.ofJson event.hookEventName with
  | some .sessionStart | some .stop => entered .idle (.ok "Idle") now record
  | some .userPromptSubmit => entered .working (.ok "Processing prompt") now record
  | some .preToolUse => entered .working (labelForTool repr event.toolName) now record
  | some .postToolUse =>
      if record.state = .working then record
      else { record with state := .working, stateSince := now }
  | some .postToolUseFailure =>
      entered .error (labelWith repr "Tool error: " event.toolName "unknown" "") now record
  | some .permissionRequest =>
      entered .asking (labelWith repr "Awaiting approval: " event.toolName "tool" "") now record
  | some .stopFailure => entered .error (.ok "Session error (API failure)") now record
  | some .subagentStart =>
      entered .working (labelWith repr "Working: subagent (" event.agentType "agent" ")") now
        { record with labelStack := record.labelStack ++ [record.actionLabel] }
  | some .subagentStop =>
      { record with
        actionLabel := record.labelStack.getLast?.getD "Working"
        labelStack := record.labelStack.dropLast
        stateSince := now }
  | some .sessionEnd | none => record

/-- The session's record after an event, as the registry holds it. -/
def handle (record : Option AgentRecord) (event : HookEvent) (now : ℚ) : Option AgentRecord :=
  match record with
  | some existing =>
      match (transition repr false event now).run existing with
      | .ok .remove _ => none
      | .ok _ object | .error _ object => some object
  | none =>
      match newRecord event now with
      | .error _ => none
      | .ok fresh =>
          match (transition repr true event now).run fresh with
          | .ok .remove _ | .error _ _ => none
          | .ok _ object => some object

/-- The session's record after a list of events with their times. -/
def recordOf (events : List (HookEvent × ℚ)) : Option AgentRecord :=
  events.foldl (fun record entry => handle repr record entry.1 entry.2) none

variable {repr} {event : HookEvent} {now : ℚ} {record : AgentRecord}

theorem after_enter (state : AgentState) (label : Except PyErr String) :
    after ((enter state label now).run record) = entered state label now record := by
  rw [run_enter]
  cases label <;> rfl

theorem after_dispatch (isNew : Bool) :
    after ((dispatch repr isNew event now).run record) = effect repr event now record := by
  unfold dispatch effect
  cases HookName.ofJson event.hookEventName with
  | none => rfl
  | some name =>
      cases name with
      | sessionStart => rw [after_bind_pure, after_enter]
      | userPromptSubmit => rw [after_bind_pure, after_enter]
      | preToolUse => rw [after_bind_pure, after_enter]
      | postToolUse => rw [after_bind_pure, EStateM.run_modify, after_ok]
      | postToolUseFailure => rw [after_bind_pure, after_enter]
      | permissionRequest => rw [after_bind_pure, after_enter]
      | stop => rw [after_bind_pure, after_enter]
      | stopFailure => rw [after_bind_pure, after_enter]
      | subagentStart =>
          rw [EStateM.run_bind, EStateM.run_modify]
          dsimp only
          rw [after_bind_pure, after_enter]
      | subagentStop => rfl
      | sessionEnd => rfl

theorem after_transition (isNew : Bool) :
    after ((transition repr isNew event now).run record) =
      effect repr event now (withCwd isNew event record) := by
  rw [run_transition, after_dispatch]

/-! ## What the edit reads -/

@[simp] theorem labelStack_entered (state : AgentState) (label : Except PyErr String) :
    (entered state label now record).labelStack = record.labelStack := by
  cases label <;> rfl

theorem labelStack_effect :
    (effect repr event now record).labelStack =
      match HookName.ofJson event.hookEventName with
      | some .subagentStart => record.labelStack ++ [record.actionLabel]
      | some .subagentStop => record.labelStack.dropLast
      | _ => record.labelStack := by
  unfold effect
  cases HookName.ofJson event.hookEventName with
  | none => rfl
  | some name =>
      cases name with
      | sessionStart => exact labelStack_entered ..
      | userPromptSubmit => exact labelStack_entered ..
      | preToolUse => exact labelStack_entered ..
      | postToolUse =>
          dsimp only
          split <;> rfl
      | postToolUseFailure => exact labelStack_entered ..
      | permissionRequest => exact labelStack_entered ..
      | stop => exact labelStack_entered ..
      | stopFailure => exact labelStack_entered ..
      | subagentStart => exact labelStack_entered ..
      | subagentStop => rfl
      | sessionEnd => rfl

theorem sameActivity_entered {final : AgentRecord} (h : SameActivity record final)
    (state : AgentState) (label : Except PyErr String) :
    SameActivity (entered state label now record) (entered state label now final) := by
  cases label with
  | ok text => exact ⟨rfl, rfl, rfl⟩
  | error exception => exact ⟨rfl, h.2⟩

/-- What an event shows depends on what was shown before, but for the end of a subagent. -/
theorem sameActivity_effect {final : AgentRecord} (h : SameActivity record final)
    (hstop : HookName.ofJson event.hookEventName ≠ some .subagentStop) :
    SameActivity (effect repr event now record) (effect repr event now final) := by
  unfold effect
  cases hname : HookName.ofJson event.hookEventName with
  | none => exact h
  | some name =>
      cases name with
      | sessionStart => exact sameActivity_entered h ..
      | userPromptSubmit => exact sameActivity_entered h ..
      | preToolUse => exact sameActivity_entered h ..
      | postToolUse =>
          dsimp only
          rw [h.1]
          split
          · exact h
          · exact ⟨rfl, h.2.1, rfl⟩
      | postToolUseFailure => exact sameActivity_entered h ..
      | permissionRequest => exact sameActivity_entered h ..
      | stop => exact sameActivity_entered h ..
      | stopFailure => exact sameActivity_entered h ..
      | subagentStart =>
          refine sameActivity_entered ?_ .working _
          exact h
      | subagentStop => exact absurd hname hstop
      | sessionEnd => exact h

/-! ## One event of a session -/

/-- An event that ends the session raises nothing. -/
theorem not_labelRaises_of_sessionEnd
    (h : HookName.ofJson event.hookEventName = some .sessionEnd) : ¬ LabelRaises repr event := by
  rintro ⟨exception, hraises⟩
  rw [h] at hraises
  exact hraises

/-- A transition that returns reports a removal exactly for an end. -/
theorem opOf_eq_remove_iff {isNew : Bool} :
    opOf isNew event = .remove ↔ HookName.ofJson event.hookEventName = some .sessionEnd := by
  unfold opOf
  cases HookName.ofJson event.hookEventName with
  | none => cases isNew <;> simp
  | some name => cases name <;> simp

/-- **An event of a tracked session** edits its record, unless it ends the session. -/
theorem handle_some :
    handle repr (some record) event now =
      if HookName.ofJson event.hookEventName = some .sessionEnd then none
      else some (effect repr event now (withCwd false event record)) := by
  have hafter := @after_transition repr event now record false
  have hraises := @raised_transition_iff repr false event now record
  unfold handle
  dsimp only
  cases hrun : (transition repr false event now).run record with
  | error exception object =>
      rw [hrun] at hafter hraises
      rw [if_neg fun hend => not_labelRaises_of_sessionEnd hend (hraises.mp rfl)]
      exact congrArg some hafter
  | ok op object =>
      rw [hrun] at hafter
      have hremove := @opOf_eq_remove_iff event false
      rw [← op_of_transition repr hrun] at hremove
      cases op with
      | remove => exact (if_pos (hremove.mp rfl)).symm
      | upsert =>
          rw [if_neg fun hend => Op.noConfusion (hremove.mpr hend)]
          exact congrArg some hafter
      | noop =>
          rw [if_neg fun hend => Op.noConfusion (hremove.mpr hend)]
          exact congrArg some hafter

/-- **An event of a session that is not tracked** introduces it with a record of its own,
unless it raises or ends the session at once. -/
theorem handle_none :
    handle repr none event now =
      match newRecord event now with
      | .error _ => none
      | .ok fresh =>
          if HookName.ofJson event.hookEventName = some .sessionEnd then none
          else if raised ((transition repr true event now).run fresh) then none
          else some (effect repr event now fresh) := by
  unfold handle
  cases newRecord event now with
  | error exception => rfl
  | ok fresh =>
      dsimp only
      have hafter := @after_transition repr event now fresh true
      cases hrun : (transition repr true event now).run fresh with
      | error exception object =>
          rw [raised_error, if_pos rfl]
          exact (ite_self none).symm
      | ok op object =>
          rw [hrun] at hafter
          have hremove := @opOf_eq_remove_iff event true
          rw [← op_of_transition repr hrun] at hremove
          rw [raised_ok, if_neg Bool.false_ne_true]
          cases op with
          | remove => exact (if_pos (hremove.mp rfl)).symm
          | upsert =>
              rw [if_neg fun hend => Op.noConfusion (hremove.mpr hend)]
              exact congrArg some hafter
          | noop =>
              rw [if_neg fun hend => Op.noConfusion (hremove.mpr hend)]
              exact congrArg some hafter

/-- A new record is idle, whatever introduces the session. -/
theorem newRecord_eq_ok {fresh : AgentRecord} (h : newRecord event now = .ok fresh) :
    ∃ name, projectNameFromCwd event.cwd = .ok name ∧
      fresh =
        { sessionId := event.sessionId
          projectName := name
          cwd := event.cwd
          pid := .null
          entrypoint := .str "unknown"
          state := .idle
          actionLabel := "Idle"
          stateSince := now } := by
  unfold newRecord at h
  cases hname : projectNameFromCwd event.cwd with
  | error exception =>
      rw [hname] at h
      cases h
  | ok name =>
      rw [hname] at h
      exact ⟨name, rfl, (Except.ok.inj h).symm⟩

theorem newRecord_of_projectName {name : Json}
    (h : projectNameFromCwd event.cwd = .ok name) : ∃ fresh, newRecord event now = .ok fresh := by
  unfold newRecord
  rw [h]
  exact ⟨_, rfl⟩

theorem recordOf_append (first second : List (HookEvent × ℚ)) :
    recordOf repr (first ++ second) =
      second.foldl (fun record entry => handle repr record entry.1 entry.2)
        (recordOf repr first) :=
  List.foldl_append ..

theorem recordOf_snoc (events : List (HookEvent × ℚ)) (entry : HookEvent × ℚ) :
    recordOf repr (events ++ [entry]) = handle repr (recordOf repr events) entry.1 entry.2 :=
  recordOf_append events [entry]

end Daemon
end SiliconOffice
