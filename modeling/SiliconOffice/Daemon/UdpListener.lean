import SiliconOffice.Common.Ipc
import SiliconOffice.Daemon.Registry

/-!
# Datagrams: from bytes to the registry

`on_event` drops a payload that is no event and hands every other one to the registry;
`datagram_received` swallows whatever that raises.  Nothing is rolled back: the record
of a tracked session keeps the assignments made before the exception.

`Settled` lists, branch by branch, the values those assignments write.  A rejected
datagram leaves no trace exactly when they are the values already there
(`rejected_leaves_no_trace_iff`).
-/

namespace SiliconOffice
namespace Daemon

open Library Python Common

/-- The arguments of the `broadcast_diff` that `on_event` schedules. -/
structure DiffCall where
  sessionId : Json
  op : Op
  agent : Option AgentRecord

variable (repr : Json → Except PyErr String)

/-- `run.on_event`. -/
def onEvent (host : Host) (payload : Json) (now : ℚ) :
    EStateM PyErr SessionRegistry (Option DiffCall) :=
  match HookEvent.fromDict payload with
  | .error _ => pure none
  | .ok event => do
      let (record, op) ← SessionRegistry.applyEvent repr host event now
      match op with
      | .upsert | .remove => return some ⟨event.sessionId, op, record⟩
      | .noop => return none

/-- `data.rstrip(b"\n")`. -/
def rstripNewlines (data : Bytes) : Bytes :=
  (data.reverse.dropWhile (· == newline)).reverse

/-- `HookEventProtocol.datagram_received`. -/
def datagramReceived (json : JsonModule) (host : Host) (data : Bytes) (now : ℚ) :
    EStateM PyErr SessionRegistry (Option DiffCall) := do
  let obj ← raising (decodeMessage json (rstripNewlines data))
  if obj.isNone then return none
  else swallowing none (onEvent repr host obj now)

/-! ## Rejected datagrams -/

/-- Handling the datagram raises below `datagram_received`: in `from_dict`, in the
registry or in the state machine. -/
def Rejected (json : JsonModule) (host : Host) (data : Bytes) (now : ℚ)
    (registry : SessionRegistry) : Prop :=
  ∃ payload, decodeMessage json (rstripNewlines data) = .ok payload ∧
    payload.isNone = false ∧
    ((∃ exception, HookEvent.fromDict payload = .error exception) ∨
      raised ((onEvent repr host payload now).run registry) = true)

/-- The branch of the event builds a label that raises. -/
def LabelRaises (event : HookEvent) : Prop :=
  ∃ exception,
    match HookName.ofJson event.hookEventName with
    | some .preToolUse => labelForTool repr event.toolName = .error exception
    | some .postToolUseFailure =>
        labelWith repr "Tool error: " event.toolName "unknown" "" = .error exception
    | some .permissionRequest =>
        labelWith repr "Awaiting approval: " event.toolName "tool" "" = .error exception
    | some .subagentStart =>
        labelWith repr "Working: subagent (" event.agentType "agent" ")" = .error exception
    | _ => False

/-- The event is mapped to an upsert, the record has no pid yet and looking its session
file up raises. -/
def IdentityRaises (host : Host) (event : HookEvent) (record : AgentRecord) : Prop :=
  HookName.ofJson event.hookEventName ≠ none ∧
    HookName.ofJson event.hookEventName ≠ some .sessionEnd ∧
    record.pid.isNone = true ∧
    ∃ exception, findSessionFile host.sessionFiles record.sessionId = .error exception

/-- `enter state label now` would assign the values that the record has. -/
def Entered (state : AgentState) (label : Except PyErr String) (now : ℚ)
    (record : AgentRecord) : Prop :=
  record.state = state ∧
    ∀ text, label = .ok text → record.actionLabel = text ∧ record.stateSince = now

/-- Every assignment that the event makes writes the value that is already there. -/
def Settled (event : HookEvent) (now : ℚ) (record : AgentRecord) : Prop :=
  (event.cwd.truthy = true → record.cwd = event.cwd) ∧
    match HookName.ofJson event.hookEventName with
    | some .sessionStart | some .stop => Entered .idle (.ok "Idle") now record
    | some .userPromptSubmit => Entered .working (.ok "Processing prompt") now record
    | some .preToolUse => Entered .working (labelForTool repr event.toolName) now record
    | some .postToolUse => record.state = .working
    | some .postToolUseFailure =>
        Entered .error (labelWith repr "Tool error: " event.toolName "unknown" "") now record
    | some .permissionRequest =>
        Entered .asking (labelWith repr "Awaiting approval: " event.toolName "tool" "") now
          record
    | some .stopFailure => Entered .error (.ok "Session error (API failure)") now record
    -- the label is pushed on the stack before anything can raise
    | some .subagentStart => False
    | some .subagentStop =>
        record.labelStack = [] ∧ record.actionLabel = "Working" ∧ record.stateSince = now
    | some .sessionEnd | none => True

variable {repr}

theorem withCwd_cwd_eq_iff {event : HookEvent} {record : AgentRecord} :
    (withCwd false event record).cwd = record.cwd ↔
      (event.cwd.truthy = true → record.cwd = event.cwd) := by
  unfold withCwd
  by_cases hcwd : event.cwd.truthy = true
  · simp [hcwd, eq_comm]
  · simp [hcwd]

/-- The edits of `enter` on a record whose `cwd` was just updated. -/
theorem after_enter_eq_iff {state : AgentState} {label : Except PyErr String} {now : ℚ}
    {event : HookEvent} {record : AgentRecord} :
    after ((enter state label now).run (withCwd false event record)) = record ↔
      (event.cwd.truthy = true → record.cwd = event.cwd) ∧
        Entered state label now record := by
  rw [run_enter, ← withCwd_cwd_eq_iff]
  unfold Entered
  cases label with
  | error exception =>
      simp [AgentRecord.ext_iff, eq_comm]
  | ok text =>
      simp [AgentRecord.ext_iff, eq_comm]

/-- **The edits of an event leave a record as it was exactly when it is settled.** -/
theorem after_transition_eq_iff {event : HookEvent} {now : ℚ} {record : AgentRecord} :
    after ((transition repr false event now).run record) = record ↔
      Settled repr event now record := by
  rw [run_transition]
  unfold dispatch Settled
  cases HookName.ofJson event.hookEventName with
  | none =>
      simp [AgentRecord.ext_iff, withCwd_cwd_eq_iff]
  | some name =>
      cases name with
      | sessionStart => rw [after_bind_pure, after_enter_eq_iff]
      | userPromptSubmit => rw [after_bind_pure, after_enter_eq_iff]
      | preToolUse => rw [after_bind_pure, after_enter_eq_iff]
      | postToolUse =>
          rw [after_bind_pure, EStateM.run_modify, after_ok, withCwd_state]
          by_cases hstate : record.state = .working
          · simp [AgentRecord.ext_iff, hstate, withCwd_cwd_eq_iff]
          · simp [AgentRecord.ext_iff, hstate, Ne.symm hstate]
      | postToolUseFailure => rw [after_bind_pure, after_enter_eq_iff]
      | permissionRequest => rw [after_bind_pure, after_enter_eq_iff]
      | stop => rw [after_bind_pure, after_enter_eq_iff]
      | stopFailure => rw [after_bind_pure, after_enter_eq_iff]
      | subagentStart =>
          -- the stack has grown by one, whether or not the label raised
          refine iff_of_false (fun h => ?_) (fun h => h.2)
          have hlength := congrArg (fun edited => edited.labelStack.length) h
          rw [EStateM.run_bind, EStateM.run_modify] at hlength
          dsimp only at hlength
          rw [after_bind_pure, run_enter] at hlength
          cases hlabel : labelWith repr "Working: subagent (" event.agentType "agent" ")" <;>
            simp [hlabel] at hlength
      | subagentStop =>
          rw [after_bind_pure, EStateM.run_modify, after_ok, ← withCwd_cwd_eq_iff]
          constructor
          · intro h
            have hstack : record.labelStack = [] := by
              have hlength := congrArg (fun edited => edited.labelStack.length) h
              simp only [withCwd_labelStack, List.length_dropLast] at hlength
              exact List.eq_nil_of_length_eq_zero (by omega)
            simp only [AgentRecord.ext_iff, withCwd_labelStack, hstack] at h
            exact ⟨h.2.2.1, hstack, h.2.2.2.2.2.2.1.symm, h.2.2.2.2.2.2.2.1.symm⟩
          · rintro ⟨hcwd, hstack, hlabel, hsince⟩
            simp [AgentRecord.ext_iff, hcwd, hstack, hlabel, hsince]
      | sessionEnd =>
          simp [AgentRecord.ext_iff, withCwd_cwd_eq_iff]

theorem raised_enter_iff {state : AgentState} {label : Except PyErr String} {now : ℚ}
    {record : AgentRecord} :
    raised ((enter state label now).run record) = true ↔
      ∃ exception, label = .error exception := by
  rw [run_enter]
  cases label <;> simp

/-- Only building a label can raise. -/
theorem raised_transition_iff {isNew : Bool} {event : HookEvent} {now : ℚ}
    {record : AgentRecord} :
    raised ((transition repr isNew event now).run record) = true ↔ LabelRaises repr event := by
  rw [run_transition]
  unfold dispatch LabelRaises
  cases HookName.ofJson event.hookEventName with
  | none => simp
  | some name =>
      cases name with
      | preToolUse => rw [raised_bind_pure, raised_enter_iff]
      | postToolUseFailure => rw [raised_bind_pure, raised_enter_iff]
      | permissionRequest => rw [raised_bind_pure, raised_enter_iff]
      | subagentStart =>
          rw [EStateM.run_bind, EStateM.run_modify]
          dsimp only
          rw [raised_bind_pure, raised_enter_iff]
      | postToolUse =>
          rw [raised_bind_pure, EStateM.run_modify]
          simp
      | subagentStop =>
          rw [raised_bind_pure, EStateM.run_modify]
          simp
      | sessionEnd => simp
      | sessionStart =>
          rw [raised_bind_pure, raised_enter_iff]
          simp
      | userPromptSubmit =>
          rw [raised_bind_pure, raised_enter_iff]
          simp
      | stop =>
          rw [raised_bind_pure, raised_enter_iff]
          simp
      | stopFailure =>
          rw [raised_bind_pure, raised_enter_iff]
          simp

section tracked

variable {host : Host} {event : HookEvent} {now : ℚ} {registry : SessionRegistry}
  {key : DictKey} {record : AgentRecord}

/-- An event of a tracked session raises for its label or for the session's file. -/
theorem raised_applyEvent_iff (hkey : event.sessionId.hash = .ok key)
    (htracked : registry.get? key = some record) :
    raised ((SessionRegistry.applyEvent repr host event now).run registry) = true ↔
      LabelRaises repr event ∨ IdentityRaises host event record := by
  rw [SessionRegistry.run_applyEvent_tracked hkey htracked,
    ← @raised_transition_iff repr false event now record]
  have hsame := sameIdentity_transition repr false event now record
  unfold IdentityRaises
  rw [← and_assoc, ← opOf_eq_upsert_iff]
  cases hrun : (transition repr false event now).run record with
  | error exception object => simp
  | ok op object =>
      rw [hrun] at hsame
      obtain ⟨hid, hpid⟩ : object.sessionId = record.sessionId ∧ object.pid = record.pid := hsame
      rw [← op_of_transition repr hrun]
      cases op with
      | remove => simp
      | noop => simp
      | upsert =>
          rw [← hid, ← hpid]
          simp only [raised_ok, Bool.false_eq_true, false_or, true_and]
          cases hresolved : resolved host object with
          | ok final =>
              refine iff_of_false (by simp) ?_
              rintro ⟨hnone, exception, hfind⟩
              rw [resolved_error_iff.mpr ⟨hnone, hfind⟩] at hresolved
              cases hresolved
          | error exception =>
              obtain ⟨hnone, hfind⟩ := resolved_error_iff.mp hresolved
              exact iff_of_true rfl ⟨hnone, exception, hfind⟩

/-- What is left of a raising event is all its edits of the record. -/
theorem after_applyEvent_of_raised (hkey : event.sessionId.hash = .ok key)
    (htracked : registry.get? key = some record)
    (hraised : raised ((SessionRegistry.applyEvent repr host event now).run registry) = true) :
    after ((SessionRegistry.applyEvent repr host event now).run registry) =
      registry.store key (after ((transition repr false event now).run record)) := by
  rw [SessionRegistry.run_applyEvent_tracked hkey htracked] at hraised ⊢
  cases hrun : (transition repr false event now).run record with
  | error exception object => rfl
  | ok op object =>
      rw [hrun] at hraised
      cases op with
      | remove => cases hraised
      | noop => cases hraised
      | upsert =>
          dsimp only at hraised ⊢
          cases hresolved : resolved host object with
          | error exception => rfl
          | ok final =>
              rw [hresolved] at hraised
              cases hraised

/-- A raising event of a session that is not tracked never reaches the registry. -/
theorem after_applyEvent_new_of_raised (hkey : event.sessionId.hash = .ok key)
    (hnew : registry.get? key = none)
    (hraised : raised ((SessionRegistry.applyEvent repr host event now).run registry) = true) :
    after ((SessionRegistry.applyEvent repr host event now).run registry) = registry := by
  rw [SessionRegistry.run_applyEvent_new hkey hnew] at hraised ⊢
  cases hrecord : newRecord event now with
  | error exception => rfl
  | ok record =>
      rw [hrecord] at hraised
      dsimp only at hraised ⊢
      cases hrun : (transition repr true event now).run record with
      | error exception object => rfl
      | ok op object =>
          rw [hrun] at hraised
          cases op with
          | remove => cases hraised
          | noop => rfl
          | upsert =>
              dsimp only at hraised ⊢
              cases hresolved : resolved host object with
              | error exception => rfl
              | ok final =>
                  rw [hresolved] at hraised
                  cases hraised

theorem store_eq_self_iff {edited : AgentRecord} (htracked : registry.get? key = some record) :
    registry.store key edited = registry ↔ edited = record := by
  constructor
  · intro h
    have hlookup := congrArg (fun changed => changed.get? key) h
    simp only [SessionRegistry.get?_store, BEq.refl, if_true, htracked] at hlookup
    exact Option.some.inj hlookup
  · rintro rfl
    exact SessionRegistry.store_of_get? htracked

/-- A raising event leaves no trace on the registry exactly when what it edits is settled. -/
theorem raised_applyEvent_unchanged_iff :
    (raised ((SessionRegistry.applyEvent repr host event now).run registry) = true →
        after ((SessionRegistry.applyEvent repr host event now).run registry) = registry) ↔
      ∀ key record, event.sessionId.hash = .ok key → registry.get? key = some record →
        LabelRaises repr event ∨ IdentityRaises host event record →
        Settled repr event now record := by
  constructor
  · intro hunchanged key record hkey htracked hraises
    have hraised := (@raised_applyEvent_iff repr host event now registry key record hkey
      htracked).mpr hraises
    have hsame := hunchanged hraised
    rw [after_applyEvent_of_raised hkey htracked hraised, store_eq_self_iff htracked] at hsame
    exact after_transition_eq_iff.mp hsame
  · intro hsettled hraised
    cases hkey : event.sessionId.hash with
    | error exception => rw [SessionRegistry.run_applyEvent_unhashable hkey, after_error]
    | ok key =>
        cases htracked : registry.get? key with
        | none => exact after_applyEvent_new_of_raised hkey htracked hraised
        | some record =>
            rw [after_applyEvent_of_raised hkey htracked hraised, store_eq_self_iff htracked,
              after_transition_eq_iff]
            exact hsettled key record hkey htracked
              ((raised_applyEvent_iff hkey htracked).mp hraised)

end tracked

theorem run_onEvent_of_event {host : Host} {payload : Json} {event : HookEvent} {now : ℚ}
    {registry : SessionRegistry} (hevent : HookEvent.fromDict payload = .ok event) :
    raised ((onEvent repr host payload now).run registry) =
        raised ((SessionRegistry.applyEvent repr host event now).run registry) ∧
      after ((onEvent repr host payload now).run registry) =
        after ((SessionRegistry.applyEvent repr host event now).run registry) := by
  unfold onEvent
  rw [hevent]
  dsimp only
  rw [EStateM.run_bind]
  cases (SessionRegistry.applyEvent repr host event now).run registry with
  | error exception s => exact ⟨rfl, rfl⟩
  | ok result s =>
      obtain ⟨record, op⟩ := result
      cases op <;> exact ⟨rfl, rfl⟩

/-- What an event can leave: it drops no session but the one it is to be removed from, and a
diff that is to be broadcast holds the record that the registry has now, if any. -/
inductive Leaves (registry : SessionRegistry) :
    EStateM.Result PyErr SessionRegistry (Option DiffCall) → Prop
  | raised {exception : PyErr} {left : SessionRegistry}
      (kept : ∀ key, registry.get? key ≠ none → left.get? key ≠ none) :
      Leaves registry (.error exception left)
  | silent {left : SessionRegistry}
      (kept : ∀ key, registry.get? key ≠ none → left.get? key ≠ none) :
      Leaves registry (.ok none left)
  | upserted {sessionId : Json} {key : DictKey} (record : AgentRecord)
      (hashed : sessionId.hash = .ok key) :
      Leaves registry (.ok (some ⟨sessionId, .upsert, some record⟩) (registry.store key record))
  | removed {sessionId : Json} {key : DictKey} (hashed : sessionId.hash = .ok key) :
      Leaves registry (.ok (some ⟨sessionId, .remove, none⟩) (registry.discard key))

theorem get?_store_ne_none {registry : SessionRegistry} {key other : DictKey}
    (record : AgentRecord) (h : registry.get? other ≠ none) :
    (registry.store key record).get? other ≠ none := by
  rw [SessionRegistry.get?_store]
  split
  · exact Option.some_ne_none _
  · exact h

theorem onEvent_leaves (repr : Json → Except PyErr String) (host : Host) (payload : Json)
    (now : ℚ) (registry : SessionRegistry) :
    Leaves registry ((onEvent repr host payload now).run registry) := by
  unfold onEvent
  cases HookEvent.fromDict payload with
  | error exception => exact .silent fun _ => id
  | ok event =>
      dsimp only
      rw [EStateM.run_bind]
      cases hkey : event.sessionId.hash with
      | error exception =>
          rw [SessionRegistry.run_applyEvent_unhashable hkey]
          exact .raised fun _ => id
      | ok key =>
          cases htracked : registry.get? key with
          | some record =>
              rw [SessionRegistry.run_applyEvent_tracked hkey htracked]
              cases (transition repr false event now).run record with
              | error exception object => exact .raised fun _ => get?_store_ne_none object
              | ok op object =>
                  cases op with
                  | remove => exact .removed hkey
                  | noop => exact .silent fun _ => get?_store_ne_none object
                  | upsert =>
                      dsimp only
                      cases resolved host object with
                      | error exception => exact .raised fun _ => get?_store_ne_none object
                      | ok final => exact .upserted final hkey
          | none =>
              rw [SessionRegistry.run_applyEvent_new hkey htracked]
              cases newRecord event now with
              | error exception => exact .raised fun _ => id
              | ok record =>
                  dsimp only
                  cases (transition repr true event now).run record with
                  | error exception object => exact .raised fun _ => id
                  | ok op object =>
                      cases op with
                      | remove => exact .removed hkey
                      | noop => exact .silent fun _ => id
                      | upsert =>
                          dsimp only
                          cases resolved host object with
                          | error exception => exact .raised fun _ => id
                          | ok final => exact .upserted final hkey

/-- Only an object is an event, so a payload that is one is not `None`. -/
theorem isNone_of_fromDict {payload : Json} {event : HookEvent}
    (h : HookEvent.fromDict payload = .ok event) : payload.isNone = false := by
  cases payload with
  | obj members => rfl
  | null => cases h
  | bool value => rfl
  | int value => rfl
  | float value => rfl
  | str text => rfl
  | arr items => rfl

theorem after_datagramReceived {json : JsonModule} {host : Host} {data : Bytes} {now : ℚ}
    {registry : SessionRegistry} {payload : Json}
    (hdecode : decodeMessage json (rstripNewlines data) = .ok payload)
    (hnone : payload.isNone = false) :
    after ((datagramReceived repr json host data now).run registry) =
      after ((onEvent repr host payload now).run registry) := by
  unfold datagramReceived
  rw [hdecode, EStateM.run_bind, run_raising_ok]
  dsimp only
  rw [hnone, if_neg Bool.false_ne_true, after_swallowing]

/-- **When a rejected datagram leaves no trace.**  The registry is as before exactly when
the event, if there is one, is about a session that is not tracked, or raises nothing, or
only assigns values that its record already has. -/
theorem rejected_leaves_no_trace_iff (json : JsonModule) (host : Host) (data : Bytes)
    (now : ℚ) (registry : SessionRegistry) :
    (Rejected repr json host data now registry →
        after ((datagramReceived repr json host data now).run registry) = registry) ↔
      ∀ payload event key record,
        decodeMessage json (rstripNewlines data) = .ok payload →
        HookEvent.fromDict payload = .ok event → event.sessionId.hash = .ok key →
        registry.get? key = some record →
        LabelRaises repr event ∨ IdentityRaises host event record →
        Settled repr event now record := by
  constructor
  -- only an event of a tracked session can leave anything behind
  · intro hclaim payload event key record hdecode hevent
    have hnone := isNone_of_fromDict hevent
    obtain ⟨hsame, hafter⟩ := @run_onEvent_of_event repr host payload event now registry
      hevent
    refine raised_applyEvent_unchanged_iff.mp (fun hraised => ?_) key record
    have hunchanged := hclaim ⟨payload, hdecode, hnone, .inr (hsame.trans hraised)⟩
    rw [after_datagramReceived hdecode hnone, hafter] at hunchanged
    exact hunchanged
  · rintro hcondition ⟨payload, hdecode, hnone, hrejected⟩
    rw [after_datagramReceived hdecode hnone]
    cases hevent : HookEvent.fromDict payload with
    | error exception =>
        unfold onEvent
        rw [hevent]
        rfl
    | ok event =>
        obtain ⟨hsame, hafter⟩ := @run_onEvent_of_event repr host payload event now
          registry hevent
        rw [hafter]
        refine raised_applyEvent_unchanged_iff.mpr (fun key record =>
          hcondition payload event key record hdecode hevent) ?_
        rcases hrejected with ⟨exception, herror⟩ | hraised
        · rw [hevent] at herror
          cases herror
        · exact hsame.symm.trans hraised

/-! ### A tool name that is a list -/

/-- A tracked idle session. -/
def idleRegistry : SessionRegistry :=
  SessionRegistry.fresh.store (.str "s1")
    { sessionId := .str "s1"
      projectName := .str "proj"
      cwd := .str "/tmp/proj"
      pid := .int 7
      entrypoint := .str "cli"
      state := .idle
      actionLabel := "Idle"
      stateSince := 1 }

/-- A `PreToolUse` event whose `tool_name` is a list. -/
def listToolPayload : Json :=
  .obj
    [("session_id", .str "s1"),
     ("hook_event_name", .str "PreToolUse"),
     ("tool_name", .arr [.str "Bash"])]

def listToolText : String :=
  "\x7b\"session_id\":\"s1\",\"hook_event_name\":\"PreToolUse\",\"tool_name\":[\"Bash\"]\x7d"

def listToolJson : JsonModule where
  dumps _ := listToolText
  parse text := if text = listToolText then .ok listToolPayload else .error .jsonDecodeError

def quietHost : Host where
  sessionFiles := []
  kill _ := .ok ()

/-- The list cannot be looked up among the tool labels, but the record of the session has
been set to working by then. -/
theorem rejected_leaves_trace :
    ¬ ∀ (repr : Json → Except PyErr String) (json : JsonModule) (host : Host) (data : Bytes)
      (now : ℚ) (registry : SessionRegistry), Rejected repr json host data now registry →
        after ((datagramReceived repr json host data now).run registry) = registry := by
  intro hclaim
  have hunchanged := hclaim (fun _ => .ok "['Bash']") listToolJson quietHost
    (encodeMessage listToolJson listToolPayload) 2 idleRegistry
    ⟨listToolPayload, rfl, rfl, .inr rfl⟩
  have hstate := congrArg (fun registry => (registry.get? (.str "s1")).map (·.state)) hunchanged
  exact absurd hstate (by decide)

end Daemon
end SiliconOffice
