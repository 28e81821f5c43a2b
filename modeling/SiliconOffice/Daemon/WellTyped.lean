import SiliconOffice.Daemon.UdpListener
import SiliconOffice.Library.Related

/-!
# Events whose fields are strings

What the emitter sends: a session id that is a non-empty string, every other field a
string, `null` or absent.  No label raises on such an event (`not_labelRaises`), no lookup
raises when the session files hold objects (`findSessionFile_returns`), so `apply_event`
returns (`applyEvent_tracked`, `applyEvent_new`) and a datagram has one of three outcomes
(`Observed`).
-/

namespace SiliconOffice
namespace Daemon

open Library Python Common

/-- A string, `null` or absent. -/
def IsOptText (value : Json) : Prop :=
  value = .null ∨ ∃ text, value = .str text

/-- The fields that `apply_event` reads, as the emitter fills them in. -/
structure WellTyped (event : HookEvent) : Prop where
  session : ∃ text, text ≠ "" ∧ event.sessionId = .str text
  cwd : IsOptText event.cwd
  toolName : IsOptText event.toolName
  agentType : IsOptText event.agentType

/-- Every session file holds an object or cannot be read. -/
def ObjectFiles (host : Host) : Prop :=
  ∀ file ∈ host.sessionFiles,
    (∃ members, file = .ok (.obj members)) ∨
      ∃ exception, file = .error exception ∧
        (exception.isOSError || exception = .jsonDecodeError) = true

variable {repr : Json → Except PyErr String} {host : Host} {event : HookEvent} {now : ℚ}
  {registry left : SessionRegistry} {key : DictKey}

/-! ## Nothing raises -/

theorem labelForTool_returns {toolName : Json} (h : IsOptText toolName) :
    ∃ label, labelForTool repr toolName = .ok label := by
  rcases h with rfl | ⟨text, rfl⟩
  · exact ⟨_, rfl⟩
  · unfold labelForTool
    split
    · exact ⟨_, rfl⟩
    · exact ⟨_, rfl⟩

theorem labelWith_returns {value : Json} (h : IsOptText value) (before default after : String) :
    ∃ label, labelWith repr before value default after = .ok label := by
  rcases h with rfl | ⟨text, rfl⟩
  · exact ⟨_, rfl⟩
  · unfold labelWith
    split
    · exact ⟨_, rfl⟩
    · exact ⟨_, rfl⟩

theorem projectNameFromCwd_returns {cwd : Json} (h : IsOptText cwd) :
    ∃ name, projectNameFromCwd cwd = .ok name := by
  rcases h with rfl | ⟨text, rfl⟩
  · exact ⟨_, rfl⟩
  · unfold projectNameFromCwd
    split
    · exact ⟨_, rfl⟩
    · exact ⟨_, rfl⟩

theorem not_labelRaises (h : WellTyped event) : ¬ LabelRaises repr event := by
  rintro ⟨exception, hraises⟩
  have htool := @labelForTool_returns repr event.toolName h.toolName
  have hwith := @labelWith_returns repr event.toolName h.toolName
  have hagent := @labelWith_returns repr event.agentType h.agentType
  split at hraises
  · obtain ⟨label, hlabel⟩ := htool
    rw [hlabel] at hraises
    cases hraises
  · obtain ⟨label, hlabel⟩ := hwith "Tool error: " "unknown" ""
    rw [hlabel] at hraises
    cases hraises
  · obtain ⟨label, hlabel⟩ := hwith "Awaiting approval: " "tool" ""
    rw [hlabel] at hraises
    cases hraises
  · obtain ⟨label, hlabel⟩ := hagent "Working: subagent (" "agent" ")"
    rw [hlabel] at hraises
    cases hraises
  · exact hraises

/-- Reading the directory skips what cannot be read and keeps the objects. -/
theorem readSessionFiles_returns {files : List (Except PyErr Json)}
    (h : ∀ file ∈ files,
      (∃ members, file = .ok (.obj members)) ∨
        ∃ exception, file = .error exception ∧
          (exception.isOSError || exception = .jsonDecodeError) = true) :
    ∃ all, readSessionFiles files = .ok all ∧ ∀ data ∈ all, data.isObject = true := by
  induction files with
  | nil => exact ⟨[], rfl, fun data hdata => absurd hdata List.not_mem_nil⟩
  | cons file rest ih =>
      obtain ⟨all, hall, hobjects⟩ := ih fun other hother =>
        h other (List.mem_cons_of_mem _ hother)
      rcases h file List.mem_cons_self with ⟨members, rfl⟩ | ⟨exception, rfl, hskipped⟩
      · refine ⟨.obj members :: all, ?_, fun data hdata => ?_⟩
        · unfold readSessionFiles
          rw [hall]
          rfl
        · rcases List.mem_cons.mp hdata with rfl | hrest
          · rfl
          · exact hobjects data hrest
      · refine ⟨all, ?_, hobjects⟩
        unfold readSessionFiles
        rw [if_pos hskipped]
        exact hall

theorem firstNaming_returns (sessionId : Json) {all : List Json}
    (h : ∀ data ∈ all, data.isObject = true) :
    ∃ found, firstNaming sessionId all = .ok found := by
  induction all with
  | nil => exact ⟨none, rfl⟩
  | cons data rest ih =>
      unfold firstNaming
      rw [Json.get_of_isObject (h data List.mem_cons_self)]
      by_cases hnamed : ((data.get? "sessionId").getD .null).equals sessionId = true
      · exact ⟨some data, if_pos hnamed⟩
      · obtain ⟨found, hfound⟩ := ih fun other hother =>
          h other (List.mem_cons_of_mem _ hother)
        exact ⟨found, (if_neg hnamed).trans hfound⟩

theorem findSessionFile_returns (h : ObjectFiles host) (sessionId : Json) :
    ∃ found, findSessionFile host.sessionFiles sessionId = .ok found := by
  obtain ⟨all, hall, hobjects⟩ := readSessionFiles_returns h
  obtain ⟨found, hfound⟩ := firstNaming_returns sessionId hobjects
  refine ⟨found, ?_⟩
  unfold findSessionFile
  rw [hall]
  exact hfound

theorem newRecord_returns (h : WellTyped event) : ∃ record, newRecord event now = .ok record := by
  obtain ⟨name, hname⟩ := projectNameFromCwd_returns h.cwd
  unfold newRecord
  rw [hname]
  exact ⟨_, rfl⟩

theorem resolved_returns (h : ObjectFiles host) (record : AgentRecord) :
    ∃ final, resolved host record = .ok final := by
  cases hresolved : resolved host record with
  | ok final => exact ⟨final, rfl⟩
  | error exception =>
      obtain ⟨found, hfound⟩ := findSessionFile_returns h record.sessionId
      rw [(resolved_error_iff.mp hresolved).2] at hfound
      cases hfound

theorem transition_returns (h : WellTyped event) (isNew : Bool) (record : AgentRecord) :
    ∃ op object, (transition repr isNew event now).run record = .ok op object := by
  cases hrun : (transition repr isNew event now).run record with
  | ok op object => exact ⟨op, object, rfl⟩
  | error exception object =>
      have hraised : raised ((transition repr isNew event now).run record) = true := by
        rw [hrun]
        rfl
      exact absurd (raised_transition_iff.mp hraised) (not_labelRaises h)

/-! ## What a datagram comes to -/

/-- The record shows the same activity: state, label and time. -/
def SameActivity (record final : AgentRecord) : Prop :=
  final.state = record.state ∧ final.actionLabel = record.actionLabel ∧
    final.stateSince = record.stateSince

theorem SameActivity.refl (record : AgentRecord) : SameActivity record record :=
  ⟨rfl, rfl, rfl⟩

theorem sameActivity_withCwd (isNew : Bool) (record : AgentRecord) :
    SameActivity record (withCwd isNew event record) :=
  ⟨withCwd_state .., withCwd_actionLabel .., withCwd_stateSince ..⟩

/-- A transition that reports a noop has changed no more than the `cwd`. -/
theorem transition_noop {isNew : Bool} {record object : AgentRecord}
    (hrun : (transition repr isNew event now).run record = .ok .noop object) :
    object = withCwd isNew event record := by
  obtain ⟨rfl, hname⟩ := opOf_eq_noop_iff.mp (op_of_transition repr hrun).symm
  rw [run_transition_unmapped repr hname] at hrun
  exact (EStateM.Result.ok.inj hrun).2.symm

/-- The outcomes of a datagram: what is scheduled for broadcast, and the registry left. -/
inductive Observed (registry : SessionRegistry) : Option DiffCall → SessionRegistry → Prop
  | silent {left : SessionRegistry}
      (same : OrderedDict.Related SameActivity registry.agents left.agents) :
      Observed registry none left
  | upserted (sid : String) (record : AgentRecord) (named : sid ≠ "") :
      Observed registry (some ⟨.str sid, .upsert, some record⟩) (registry.store (.str sid) record)
  | removed (sid : String) (named : sid ≠ "") :
      Observed registry (some ⟨.str sid, .remove, none⟩) (registry.discard (.str sid))

/-- A well-typed event of a tracked session. -/
theorem applyEvent_tracked (h : WellTyped event) (hfiles : ObjectFiles host)
    (hkey : event.sessionId.hash = .ok key) {record : AgentRecord}
    (htracked : registry.get? key = some record) :
    (∃ object, (SessionRegistry.applyEvent repr host event now).run registry =
        .ok (some object, .noop) (registry.store key object) ∧ SameActivity record object) ∨
      (∃ final, (SessionRegistry.applyEvent repr host event now).run registry =
        .ok (some final, .upsert) (registry.store key final)) ∨
      (SessionRegistry.applyEvent repr host event now).run registry =
        .ok (none, .remove) (registry.discard key) := by
  rw [SessionRegistry.run_applyEvent_tracked hkey htracked]
  obtain ⟨op, object, hrun⟩ := @transition_returns repr event now h false record
  rw [hrun]
  cases op with
  | remove => exact .inr (.inr rfl)
  | noop =>
      refine .inl ⟨object, rfl, ?_⟩
      rw [transition_noop hrun]
      exact sameActivity_withCwd false record
  | upsert =>
      obtain ⟨final, hfinal⟩ := resolved_returns hfiles object
      dsimp only
      rw [hfinal]
      exact .inr (.inl ⟨final, rfl⟩)

/-- A new session is always announced or dropped. -/
theorem opOf_new_ne_noop (event : HookEvent) : opOf true event ≠ .noop := by
  intro hnoop
  cases (opOf_eq_noop_iff.mp hnoop).1

/-- A well-typed event of a session that is not tracked. -/
theorem applyEvent_new (h : WellTyped event) (hfiles : ObjectFiles host)
    (hkey : event.sessionId.hash = .ok key) (hnew : registry.get? key = none) :
    (∃ final, (SessionRegistry.applyEvent repr host event now).run registry =
        .ok (some final, .upsert) (registry.store key final)) ∨
      (SessionRegistry.applyEvent repr host event now).run registry =
        .ok (none, .remove) (registry.discard key) := by
  obtain ⟨record, hrecord⟩ := @newRecord_returns event now h
  obtain ⟨op, object, hrun⟩ := @transition_returns repr event now h true record
  rw [SessionRegistry.run_applyEvent_new hkey hnew, hrecord]
  dsimp only
  rw [hrun]
  cases op with
  | remove => exact .inr rfl
  | noop => exact absurd (op_of_transition repr hrun).symm (opOf_new_ne_noop event)
  | upsert =>
      obtain ⟨final, hfinal⟩ := resolved_returns hfiles object
      dsimp only
      rw [hfinal]
      exact .inl ⟨final, rfl⟩

/-! ## From the datagram -/

/-- A payload as the emitter builds it: the session id is a non-empty string, the other
fields are strings, `null` or absent. -/
def IsHookPayload (payload : Json) : Prop :=
  ∃ members, payload = .obj members ∧
    (∃ text, text ≠ "" ∧ members.lookup "session_id" = some (.str text)) ∧
      ∀ field ∈ ["hook_event_name", "cwd", "tool_name", "tool_input_summary", "tool_error",
        "agent_id", "agent_type"], IsOptText ((members.lookup field).getD .null)

theorem wellTyped_of_fromDict {payload : Json} (hpayload : IsHookPayload payload)
    (hevent : HookEvent.fromDict payload = .ok event) : WellTyped event := by
  obtain ⟨members, rfl, ⟨text, htext, hsession⟩, hfields⟩ := hpayload
  unfold HookEvent.fromDict at hevent
  dsimp only at hevent
  rw [hsession] at hevent
  cases hname : members.lookup "hook_event_name" with
  | none =>
      rw [hname] at hevent
      cases hevent
  | some name =>
      rw [hname] at hevent
      cases hevent
      refine ⟨⟨text, htext, rfl⟩, ?_, hfields "tool_name" (by decide),
        hfields "agent_type" (by decide)⟩
      have hcwd := hfields "cwd" (by decide)
      cases hlookup : members.lookup "cwd" with
      | none => exact .inr ⟨"", rfl⟩
      | some cwd =>
          rw [hlookup] at hcwd
          exact hcwd

/-- **A datagram with well-typed fields never raises**, and it is broadcast unless nothing
but the `cwd` of its session changed. -/
theorem onEvent_observed {payload : Json} (hpayload : IsHookPayload payload)
    (hfiles : ObjectFiles host) :
    ∃ call left, (onEvent repr host payload now).run registry = .ok call left ∧
      Observed registry call left := by
  unfold onEvent
  cases hevent : HookEvent.fromDict payload with
  | error exception =>
      exact ⟨none, registry, rfl, .silent (.refl SameActivity.refl registry.agents)⟩
  | ok event =>
      have htyped := wellTyped_of_fromDict hpayload hevent
      obtain ⟨sid, hsid, hsession⟩ := htyped.session
      have hkey : event.sessionId.hash = .ok (.str sid) := by
        rw [hsession]
        rfl
      dsimp only
      rw [EStateM.run_bind]
      cases htracked : registry.get? (.str sid) with
      | none =>
          rcases @applyEvent_new repr host event now registry (.str sid) htyped hfiles hkey
            htracked with ⟨final, hrun⟩ | hrun
          · rw [hrun]
            exact ⟨_, _, rfl, hsession ▸ .upserted sid final hsid⟩
          · rw [hrun]
            exact ⟨_, _, rfl, hsession ▸ .removed sid hsid⟩
      | some record =>
          rcases @applyEvent_tracked repr host event now registry (.str sid) htyped hfiles hkey
            record htracked with ⟨object, hrun, hsame⟩ | ⟨final, hrun⟩ | hrun
          · rw [hrun]
            exact ⟨_, _, rfl, .silent (.store_right SameActivity.refl htracked hsame)⟩
          · rw [hrun]
            exact ⟨_, _, rfl, hsession ▸ .upserted sid final hsid⟩
          · rw [hrun]
            exact ⟨_, _, rfl, hsession ▸ .removed sid hsid⟩

end Daemon
end SiliconOffice
