import SiliconOffice.Python.Json

/-!
# Wire message shapes shared by the emitter, the daemon and the frontend

`HookEvent` is what the emitter forwards over UDP: the fields are whatever JSON the
datagram held, since `from_dict` checks no types.  `AgentRecord` is the daemon's
record of one session; the fields that the daemon itself writes (`state`,
`action_label`, `state_since`, `label_stack`) have their Lean types, the ones copied
from events and session files are JSON.
-/

namespace SiliconOffice
namespace Common

open Library Python

def wireVersion : Int := 1

/-- `STATE_IDLE`, `STATE_WORKING`, `STATE_ASKING`, `STATE_ERROR`. -/
inductive AgentState
  | idle
  | working
  | asking
  | error
  deriving DecidableEq, Repr

def AgentState.text : AgentState → String
  | idle => "idle"
  | working => "working"
  | asking => "asking"
  | error => "error"

/-- A single hook invocation, as forwarded by the emitter over UDP. -/
structure HookEvent where
  sessionId : Json
  hookEventName : Json
  cwd : Json := .str ""
  toolName : Json := .null
  toolInputSummary : Json := .null
  toolError : Json := .null
  agentId : Json := .null
  agentType : Json := .null
  ts : Json := .float (.finite 0)
  v : Json := .int wireVersion

/-- `HookEvent.from_dict`: known fields become keyword arguments, `v` is dropped, and
the two fields without a default must be there. -/
def HookEvent.fromDict (d : Json) : Except PyErr HookEvent :=
  match d with
  | .obj members =>
      match members.lookup "session_id", members.lookup "hook_event_name" with
      | some sessionId, some hookEventName =>
          .ok
            { sessionId := sessionId
              hookEventName := hookEventName
              cwd := (members.lookup "cwd").getD (.str "")
              toolName := (members.lookup "tool_name").getD .null
              toolInputSummary := (members.lookup "tool_input_summary").getD .null
              toolError := (members.lookup "tool_error").getD .null
              agentId := (members.lookup "agent_id").getD .null
              agentType := (members.lookup "agent_type").getD .null
              ts := (members.lookup "ts").getD (.float (.finite 0)) }
      | _, _ => .error .typeError
  | _ => .error .attributeError

/-- `HookEvent.to_dict`: every field, in the order of their declaration. -/
def HookEvent.toDict (event : HookEvent) : Json :=
  .obj
    [("session_id", event.sessionId),
     ("hook_event_name", event.hookEventName),
     ("cwd", event.cwd),
     ("tool_name", event.toolName),
     ("tool_input_summary", event.toolInputSummary),
     ("tool_error", event.toolError),
     ("agent_id", event.agentId),
     ("agent_type", event.agentType),
     ("ts", event.ts),
     ("v", event.v)]

/-- Authoritative state for one tracked session. -/
@[ext]
structure AgentRecord where
  sessionId : Json
  projectName : Json
  cwd : Json
  pid : Json
  entrypoint : Json
  state : AgentState
  actionLabel : String
  stateSince : ℚ
  agentKind : String := "main"
  parentSessionId : Json := .null
  -- internal only: never sent to the frontend
  labelStack : List String := []

/-- `AgentRecord.to_wire_dict`: every field but the label stack. -/
def AgentRecord.toWireDict (record : AgentRecord) : Json :=
  .obj
    [("session_id", record.sessionId),
     ("project_name", record.projectName),
     ("cwd", record.cwd),
     ("pid", record.pid),
     ("entrypoint", record.entrypoint),
     ("state", .str record.state.text),
     ("action_label", .str record.actionLabel),
     ("state_since", .float (.finite record.stateSince)),
     ("agent_kind", .str record.agentKind),
     ("parent_session_id", record.parentSessionId)]

/-- What `apply_event` reports; only `upsert` and `remove` are ever sent. -/
inductive Op
  | upsert
  | remove
  | noop
  deriving DecidableEq, Repr

def Op.text : Op → String
  | upsert => "upsert"
  | remove => "remove"
  | noop => "noop"

/-- `make_snapshot_message`; the member names are the session ids as `json.dumps`
writes dictionary keys. -/
def makeSnapshotMessage (floatText : PyFloat → String)
    (agents : OrderedDict DictKey AgentRecord) (ts : ℚ) : Json :=
  .obj
    [("v", .int wireVersion),
     ("type", .str "snapshot"),
     ("ts", .float (.finite ts)),
     ("agents", .obj (agents.items.map fun item =>
       (item.1.memberName floatText, item.2.toWireDict)))]

/-- `make_diff_message`. -/
def makeDiffMessage (sessionId : Json) (op : Op) (agent : Option AgentRecord) (ts : ℚ) :
    Json :=
  .obj
    ([("v", .int wireVersion),
      ("type", .str "diff"),
      ("ts", .float (.finite ts)),
      ("session_id", sessionId),
      ("op", .str op.text)] ++
      match agent with
      | some record => [("agent", record.toWireDict)]
      | none => [])

/-- What `to_dict` writes `from_dict` reads back, but for the version, which is that of the
reader. -/
theorem HookEvent.fromDict_toDict (event : HookEvent) :
    HookEvent.fromDict event.toDict = .ok { event with v := .int wireVersion } := rfl

theorem AgentRecord.isObject_toWireDict (record : AgentRecord) :
    record.toWireDict.isObject = true := rfl

theorem AgentState.text_injective : Function.Injective AgentState.text := by
  intro a b h
  cases a <;> cases b <;> first | rfl | exact absurd h (by decide)

/-- **The frontends are sent everything but the label stack.** -/
theorem AgentRecord.toWireDict_eq_iff {record other : AgentRecord} :
    record.toWireDict = other.toWireDict ↔
      { record with labelStack := other.labelStack } = other := by
  constructor
  · intro h
    simp only [toWireDict, Json.obj.injEq, List.cons.injEq, Prod.mk.injEq, true_and, and_true,
      Json.str.injEq, Json.float.injEq, PyFloat.finite.injEq] at h
    obtain ⟨hid, hproject, hcwd, hpid, hentrypoint, hstate, hlabel, hsince, hkind, hparent⟩ := h
    ext1
    · exact hid
    · exact hproject
    · exact hcwd
    · exact hpid
    · exact hentrypoint
    · exact AgentState.text_injective hstate
    · exact hlabel
    · exact hsince
    · exact hkind
    · exact hparent
    · rfl
  · intro h
    rw [← h]
    rfl

end Common
end SiliconOffice
