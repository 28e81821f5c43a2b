import SiliconOffice.Common.Schema

/-!
# Hook event → agent record transitions

`transition` is the body of `apply_event` once the record object is at hand.  It
edits the record in place, field by field, so it is a program over the record: what
was assigned before an exception stays assigned.

Nearly every branch assigns a state, then a label, then `state_since`; `enter` is that
sequence and `run_enter` says all it can do.  `PostToolUse` touches the state only when
it is not working already, `SubagentStart` and `SubagentStop` keep a stack of labels.
-/

namespace SiliconOffice
namespace Daemon

open Library Python Common

/-- The event names that `apply_event` maps. -/
inductive HookName
  | sessionStart
  | userPromptSubmit
  | preToolUse
  | postToolUse
  | postToolUseFailure
  | permissionRequest
  | stop
  | stopFailure
  | subagentStart
  | subagentStop
  | sessionEnd
  deriving DecidableEq, Repr

namespace HookName

def text : HookName → String
  | sessionStart => "SessionStart"
  | userPromptSubmit => "UserPromptSubmit"
  | preToolUse => "PreToolUse"
  | postToolUse => "PostToolUse"
  | postToolUseFailure => "PostToolUseFailure"
  | permissionRequest => "PermissionRequest"
  | stop => "Stop"
  | stopFailure => "StopFailure"
  | subagentStart => "SubagentStart"
  | subagentStop => "SubagentStop"
  | sessionEnd => "SessionEnd"

/-- In the order of the `if`/`elif` chain. -/
def all : List HookName :=
  [sessionStart, userPromptSubmit, preToolUse, postToolUse, postToolUseFailure,
    permissionRequest, stop, stopFailure, subagentStart, subagentStop, sessionEnd]

/-- The branch that a `hook_event_name` selects, if any. -/
def ofJson (name : Json) : Option HookName :=
  all.find? fun known => name.isText known.text

end HookName

/-! ## Labels -/

def toolLabels : List (String × String) :=
  [("Bash", "Bash Execution"),
   ("Read", "Reading File"),
   ("Write", "Editing File"),
   ("Edit", "Editing File"),
   ("Grep", "Searching"),
   ("Glob", "Searching"),
   ("WebFetch", "Web Research"),
   ("WebSearch", "Web Research"),
   ("Task", "Delegating to subagent")]

variable (repr : Json → Except PyErr String)

/-- `label_for_tool`.  The fallback text is built before the table is consulted, and
consulting it hashes the name. -/
def labelForTool (toolName : Json) : Except PyErr String := do
  if toolName.truthy then
    -- `f"Using {tool_name}"` is an argument of `.get`, so it is evaluated first
    let fallback ← toolName.format repr
    let key ← toolName.hash
    match key with
    | .str name => .ok ((toolLabels.lookup name).getD ("Using " ++ fallback))
    | _ => .ok ("Using " ++ fallback)
  else .ok "Working"

/-- `f"{before}{value or default}{after}"`. -/
def labelWith (before : String) (value : Json) (default after : String) :
    Except PyErr String := do
  let text ← (if value.truthy then value else .str default).format repr
  .ok (before ++ text ++ after)

/-- `cwd.rstrip("/")`. -/
def rstripSlashes (path : String) : List Char :=
  (path.toList.reverse.dropWhile (· == '/')).reverse

/-- `os.path.basename`. -/
def basename (path : List Char) : String :=
  String.ofList (path.reverse.takeWhile (· != '/')).reverse

/-- `project_name_from_cwd`; only a string has `rstrip`. -/
def projectNameFromCwd (cwd : Json) : Except PyErr Json :=
  if cwd.truthy then
    match cwd with
    | .str path =>
        let name := basename (rstripSlashes path)
        .ok (.str (if name = "" then path else name))
    | _ => .error .attributeError
  else .ok (.str "unknown")

/-! ## Transitions -/

/-- The record built for a session that was not known. -/
def newRecord (event : HookEvent) (now : ℚ) : Except PyErr AgentRecord := do
  let projectName ← projectNameFromCwd event.cwd
  .ok
    { sessionId := event.sessionId
      projectName := projectName
      cwd := event.cwd
      pid := .null
      entrypoint := .str "unknown"
      state := .idle
      actionLabel := "Idle"
      stateSince := now }

/-- `record.state = …; record.action_label = …; record.state_since = now`. -/
def enter (state : AgentState) (label : Except PyErr String) (now : ℚ) :
    EStateM PyErr AgentRecord Unit := do
  modify fun record => { record with state := state }
  let text ← raising label
  modify fun record => { record with actionLabel := text }
  modify fun record => { record with stateSince := now }

/-- `elif event.cwd: record.cwd = event.cwd`. -/
def updateCwd (isNew : Bool) (event : HookEvent) : EStateM PyErr AgentRecord Unit :=
  modify fun record =>
    if !isNew && event.cwd.truthy then { record with cwd := event.cwd } else record

/-- The `if`/`elif` chain on `hook_event_name`. -/
def dispatch (isNew : Bool) (event : HookEvent) (now : ℚ) : EStateM PyErr AgentRecord Op := do
  match HookName.ofJson event.hookEventName with
  | some .sessionStart =>
      enter .idle (.ok "Idle") now
      return .upsert
  | some .userPromptSubmit =>
      enter .working (.ok "Processing prompt") now
      return .upsert
  | some .preToolUse =>
      enter .working (labelForTool repr event.toolName) now
      return .upsert
  | some .postToolUse =>
      -- a run of tool calls keeps the label and the time of its start
      modify fun record =>
        if record.state = .working then record
        else { record with state := .working, stateSince := now }
      return .upsert
  | some .postToolUseFailure =>
      enter .error (labelWith repr "Tool error: " event.toolName "unknown" "") now
      return .upsert
  | some .permissionRequest =>
      enter .asking (labelWith repr "Awaiting approval: " event.toolName "tool" "") now
      return .upsert
  | some .stop =>
      enter .idle (.ok "Idle") now
      return .upsert
  | some .stopFailure =>
      enter .error (.ok "Session error (API failure)") now
      return .upsert
  | some .subagentStart =>
      -- the parent's label is kept for the matching stop
      modify fun record => { record with labelStack := record.labelStack ++ [record.actionLabel] }
      enter .working (labelWith repr "Working: subagent (" event.agentType "agent" ")") now
      return .upsert
  | some .subagentStop =>
      modify fun record =>
        { record with
          actionLabel := record.labelStack.getLast?.getD "Working"
          labelStack := record.labelStack.dropLast
          stateSince := now }
      return .upsert
  | some .sessionEnd => return .remove
  -- an event that is not mapped still introduces a session that was not known
  | none => return (if isNew then .upsert else .noop)

/-- `apply_event` on the record object. -/
def transition (isNew : Bool) (event : HookEvent) (now : ℚ) : EStateM PyErr AgentRecord Op := do
  updateCwd isNew event
  dispatch repr isNew event now

/-- `apply_event` as its callers see it: the record, or none for a new session, goes in;
the record or none and the op come out. -/
def applyEvent (record : Option AgentRecord) (event : HookEvent) (now : ℚ) :
    Except PyErr (Option AgentRecord × Op) := do
  let object ← match record with
    | some existing => .ok existing
    | none => newRecord event now
  match (transition repr record.isNone event now).run object with
  | .ok .remove _ => .ok (none, .remove)
  | .ok op edited => .ok (some edited, op)
  | .error exception _ => .error exception

/-! ## What the pieces can do -/

theorem run_enter (state : AgentState) (label : Except PyErr String) (now : ℚ)
    (record : AgentRecord) :
    (enter state label now).run record =
      match label with
      | .ok text =>
          .ok () { record with state := state, actionLabel := text, stateSince := now }
      | .error exception => .error exception { record with state := state } := by
  cases label <;> rfl

/-- The record after the `cwd` line. -/
def withCwd (isNew : Bool) (event : HookEvent) (record : AgentRecord) : AgentRecord :=
  if !isNew && event.cwd.truthy then { record with cwd := event.cwd } else record

@[simp] theorem run_updateCwd (isNew : Bool) (event : HookEvent) (record : AgentRecord) :
    (updateCwd isNew event).run record = .ok () (withCwd isNew event record) := rfl

theorem run_transition (isNew : Bool) (event : HookEvent) (now : ℚ) (record : AgentRecord) :
    (transition repr isNew event now).run record =
      (dispatch repr isNew event now).run (withCwd isNew event record) := by
  unfold transition
  rw [EStateM.run_bind, run_updateCwd]

section withCwd

variable (isNew : Bool) (event : HookEvent) (record : AgentRecord)

@[simp] theorem withCwd_sessionId : (withCwd isNew event record).sessionId = record.sessionId := by
  unfold withCwd; split <;> rfl

@[simp] theorem withCwd_projectName :
    (withCwd isNew event record).projectName = record.projectName := by
  unfold withCwd; split <;> rfl

@[simp] theorem withCwd_entrypoint :
    (withCwd isNew event record).entrypoint = record.entrypoint := by
  unfold withCwd; split <;> rfl

@[simp] theorem withCwd_agentKind : (withCwd isNew event record).agentKind = record.agentKind := by
  unfold withCwd; split <;> rfl

@[simp] theorem withCwd_parentSessionId :
    (withCwd isNew event record).parentSessionId = record.parentSessionId := by
  unfold withCwd; split <;> rfl

@[simp] theorem withCwd_pid : (withCwd isNew event record).pid = record.pid := by
  unfold withCwd; split <;> rfl

@[simp] theorem withCwd_state : (withCwd isNew event record).state = record.state := by
  unfold withCwd; split <;> rfl

@[simp] theorem withCwd_actionLabel :
    (withCwd isNew event record).actionLabel = record.actionLabel := by
  unfold withCwd; split <;> rfl

@[simp] theorem withCwd_stateSince :
    (withCwd isNew event record).stateSince = record.stateSince := by
  unfold withCwd; split <;> rfl

@[simp] theorem withCwd_labelStack :
    (withCwd isNew event record).labelStack = record.labelStack := by
  unfold withCwd; split <;> rfl

end withCwd

/-- What an event never touches once the `cwd` line is done. -/
def SameIdentity (record edited : AgentRecord) : Prop :=
  edited.sessionId = record.sessionId ∧ edited.pid = record.pid

/-- **No branch touches who the record is about**, whether it returns or raises. -/
theorem sameIdentity_dispatch (isNew : Bool) (event : HookEvent) (now : ℚ)
    (record : AgentRecord) :
    SameIdentity record (after ((dispatch repr isNew event now).run record)) := by
  unfold dispatch
  cases HookName.ofJson event.hookEventName with
  | none => exact ⟨rfl, rfl⟩
  | some name =>
      cases name with
      | sessionStart => exact ⟨rfl, rfl⟩
      | userPromptSubmit => exact ⟨rfl, rfl⟩
      | preToolUse =>
          simp only [EStateM.run_bind, run_enter]
          cases labelForTool repr event.toolName <;> exact ⟨rfl, rfl⟩
      | postToolUse =>
          simp only [EStateM.run_bind, EStateM.run_modify, EStateM.run_pure, after_ok]
          split <;> exact ⟨rfl, rfl⟩
      | postToolUseFailure =>
          simp only [EStateM.run_bind, run_enter]
          cases labelWith repr "Tool error: " event.toolName "unknown" "" <;> exact ⟨rfl, rfl⟩
      | permissionRequest =>
          simp only [EStateM.run_bind, run_enter]
          cases labelWith repr "Awaiting approval: " event.toolName "tool" "" <;>
            exact ⟨rfl, rfl⟩
      | stop => exact ⟨rfl, rfl⟩
      | stopFailure => exact ⟨rfl, rfl⟩
      | subagentStart =>
          simp only [EStateM.run_bind, EStateM.run_modify, run_enter]
          cases labelWith repr "Working: subagent (" event.agentType "agent" ")" <;>
            exact ⟨rfl, rfl⟩
      | subagentStop => exact ⟨rfl, rfl⟩
      | sessionEnd => exact ⟨rfl, rfl⟩

theorem sameIdentity_transition (isNew : Bool) (event : HookEvent) (now : ℚ)
    (record : AgentRecord) :
    SameIdentity record (after ((transition repr isNew event now).run record)) := by
  rw [run_transition]
  have h := sameIdentity_dispatch repr isNew event now (withCwd isNew event record)
  exact ⟨h.1.trans (withCwd_sessionId ..), h.2.trans (withCwd_pid ..)⟩

/-- The op an event reports depends on its name and on whether the session was known. -/
def opOf (isNew : Bool) (event : HookEvent) : Op :=
  match HookName.ofJson event.hookEventName with
  | some .sessionEnd => .remove
  | some _ => .upsert
  | none => if isNew then .upsert else .noop

theorem op_of_transition {isNew : Bool} {event : HookEvent} {now : ℚ}
    {record object : AgentRecord} {op : Op}
    (h : (transition repr isNew event now).run record = .ok op object) :
    op = opOf isNew event := by
  rw [run_transition] at h
  unfold dispatch at h
  unfold opOf
  cases hname : HookName.ofJson event.hookEventName with
  | none =>
      rw [hname] at h
      exact (EStateM.Result.ok.inj h).1.symm
  | some name =>
      rw [hname] at h
      cases name with
      | sessionEnd => exact (EStateM.Result.ok.inj h).1.symm
      | subagentStart =>
          rw [EStateM.run_bind, EStateM.run_modify] at h
          exact value_of_bind_pure h
      | sessionStart => exact value_of_bind_pure h
      | userPromptSubmit => exact value_of_bind_pure h
      | preToolUse => exact value_of_bind_pure h
      | postToolUse => exact value_of_bind_pure h
      | postToolUseFailure => exact value_of_bind_pure h
      | permissionRequest => exact value_of_bind_pure h
      | stop => exact value_of_bind_pure h
      | stopFailure => exact value_of_bind_pure h
      | subagentStop => exact value_of_bind_pure h

theorem opOf_eq_upsert_iff {event : HookEvent} :
    opOf false event = .upsert ↔
      HookName.ofJson event.hookEventName ≠ none ∧
        HookName.ofJson event.hookEventName ≠ some .sessionEnd := by
  unfold opOf
  cases HookName.ofJson event.hookEventName with
  | none => simp
  | some name => cases name <;> simp

theorem opOf_eq_noop_iff {isNew : Bool} {event : HookEvent} :
    opOf isNew event = .noop ↔ isNew = false ∧ HookName.ofJson event.hookEventName = none := by
  unfold opOf
  cases HookName.ofJson event.hookEventName with
  | none => cases isNew <;> simp
  | some name => cases name <;> simp

/-- Of a record it knows, an event that is not mapped edits the `cwd` and nothing else. -/
theorem run_transition_unmapped {event : HookEvent} {now : ℚ} {record : AgentRecord}
    (hname : HookName.ofJson event.hookEventName = none) :
    (transition repr false event now).run record = .ok .noop (withCwd false event record) := by
  rw [run_transition]
  unfold dispatch
  rw [hname]
  rfl

end Daemon
end SiliconOffice
