import SiliconOffice.Common.Ipc
import SiliconOffice.Common.Schema
import SiliconOffice.Python.Text

/-!
# The hook emitter

What a hook invocation sends to the daemon: its payload is read from stdin, cut down to a
`HookEvent` and sent as one datagram.  Whatever raises on the way is swallowed, and then
nothing is sent.
-/

namespace SiliconOffice
namespace Emitter

open Library Python Common

def summaryMaxLen : Nat := 2000

def summaryKeys : List String :=
  ["command", "file_path", "pattern", "url", "prompt", "query"]

variable (repr : Json → Except PyErr String)

/-- `_summarize_tool_input`.  The text of a summary key is taken as it is, anything else is
printed on one line. -/
def summarizeToolInput (toolInput : Json) : Except PyErr Json :=
  let summary := summaryKeys.findSome? fun key =>
    match toolInput.get? key with
    | some (.str text) => some text
    | _ => none
  if toolInput.isNone then .ok .null
  else
    match summary with
    | some text => .ok (.str (upTo summaryMaxLen text))
    | none => do
        let text ← toolInput.format repr
        .ok (.str (upTo summaryMaxLen (replaceChar '\n' ' ' text)))

/-- `str(tool_error)[:_SUMMARY_MAX_LEN]`, unless there was no error. -/
def shortenToolError (toolError : Json) : Except PyErr Json :=
  if toolError.isNone then .ok .null
  else do
    let text ← toolError.format repr
    .ok (.str (upTo summaryMaxLen text))

/-- `build_hook_event` at the time `now`. -/
def buildHookEvent (payload : Json) (now : ℚ) : Except PyErr (Option HookEvent) := do
  let sessionId ← payload.get "session_id" .null
  let hookEventName ← payload.get "hook_event_name" .null
  if !sessionId.truthy || !hookEventName.truthy then return none
  let toolError ← payload.get "tool_error" .null
  let toolError ← shortenToolError repr toolError
  let sessionIdText ← sessionId.format repr
  let hookEventNameText ← hookEventName.format repr
  let cwd ← payload.get "cwd" .null
  let cwdText ← (if cwd.truthy then cwd else .str "").format repr
  let toolName ← payload.get "tool_name" .null
  let toolInput ← payload.get "tool_input" .null
  let toolInputSummary ← summarizeToolInput repr toolInput
  let agentId ← payload.get "agent_id" .null
  let agentType ← payload.get "agent_type" .null
  return some
    { sessionId := .str sessionIdText
      hookEventName := .str hookEventNameText
      cwd := .str cwdText
      toolName := toolName
      toolInputSummary := toolInputSummary
      toolError := toolError
      agentId := agentId
      agentType := agentType
      ts := .float (.finite now) }

/-- The payload that `main` reads from stdin; what is no JSON object counts as an empty
one. -/
def readPayload (json : JsonModule) (raw : String) : Json :=
  if (strip raw).isEmpty then .obj []
  else
    match json.loads raw with
    | .ok payload => if payload.isObject then payload else .obj []
    | .error _ => .obj []

/-- The event that a hook invocation with this stdin sends, if it sends one. -/
def eventOf (json : JsonModule) (raw : String) (now : ℚ) : Option HookEvent :=
  match buildHookEvent repr (readPayload json raw) now with
  | .ok event => event
  | .error _ => none

/-- `main`: the datagram that leaves the emitter. -/
def main (json : JsonModule) (raw : String) (now : ℚ) : Option Bytes :=
  (eventOf repr json raw now).map fun event => encodeMessage json event.toDict

variable {repr} {payload : Json} {now : ℚ} {event : HookEvent}

/-! ## What is sent -/

theorem isObject_readPayload (json : JsonModule) (raw : String) :
    (readPayload json raw).isObject = true := by
  unfold readPayload
  split
  · rfl
  · split
    · split
      · assumption
      · rfl
    · rfl

theorem format_returns (hrepr : ∀ value, ∃ text, repr value = .ok text) (value : Json) :
    ∃ text, value.format repr = .ok text := by
  cases value with
  | str text => exact ⟨text, rfl⟩
  | null => exact hrepr .null
  | bool value => exact hrepr (.bool value)
  | int value => exact hrepr (.int value)
  | float value => exact hrepr (.float value)
  | arr items => exact hrepr (.arr items)
  | obj members => exact hrepr (.obj members)

theorem summarizeToolInput_returns (hrepr : ∀ value, ∃ text, repr value = .ok text)
    (toolInput : Json) : ∃ summary, summarizeToolInput repr toolInput = .ok summary := by
  obtain ⟨text, htext⟩ := format_returns hrepr toolInput
  unfold summarizeToolInput
  rw [htext]
  dsimp only
  split
  · exact ⟨_, rfl⟩
  · split <;> exact ⟨_, rfl⟩

theorem shortenToolError_returns (hrepr : ∀ value, ∃ text, repr value = .ok text)
    (toolError : Json) : ∃ shortened, shortenToolError repr toolError = .ok shortened := by
  obtain ⟨text, htext⟩ := format_returns hrepr toolError
  unfold shortenToolError
  rw [htext]
  split <;> exact ⟨_, rfl⟩

/-- A summary is cut to its length, whichever value it was made from. -/
theorem length_summary_le {toolInput : Json} {summary : String}
    (h : summarizeToolInput repr toolInput = .ok (.str summary)) :
    summary.length ≤ summaryMaxLen := by
  unfold summarizeToolInput at h
  dsimp only at h
  split at h
  · cases h
  · split at h
    · rw [← Json.str.inj (Except.ok.inj h)]
      exact length_upTo_le ..
    · obtain ⟨text, -, htext⟩ := exists_of_bind_ok h
      rw [← Json.str.inj (Except.ok.inj htext)]
      exact length_upTo_le ..

theorem length_shortened_le {toolError : Json} {shortened : String}
    (h : shortenToolError repr toolError = .ok (.str shortened)) :
    shortened.length ≤ summaryMaxLen := by
  unfold shortenToolError at h
  split at h
  · cases h
  · obtain ⟨text, -, htext⟩ := exists_of_bind_ok h
    rw [← Json.str.inj (Except.ok.inj htext)]
    exact length_upTo_le ..

/-- The value of a field of the payload, `null` when it is missing. -/
def field (payload : Json) (key : String) : Json :=
  (payload.get? key).getD .null

/-- The event that a payload makes, field by field. -/
structure Built (repr : Json → Except PyErr String) (payload : Json) (now : ℚ)
    (event : HookEvent) : Prop where
  session : (field payload "session_id").truthy = true ∧
    ∃ text, (field payload "session_id").format repr = .ok text ∧ event.sessionId = .str text
  name : (field payload "hook_event_name").truthy = true ∧
    ∃ text, (field payload "hook_event_name").format repr = .ok text ∧
      event.hookEventName = .str text
  cwd : ∃ text, (if (field payload "cwd").truthy then field payload "cwd" else .str "").format
    repr = .ok text ∧ event.cwd = .str text
  toolName : event.toolName = field payload "tool_name"
  summary : summarizeToolInput repr (field payload "tool_input") = .ok event.toolInputSummary
  toolError : shortenToolError repr (field payload "tool_error") = .ok event.toolError
  agentId : event.agentId = field payload "agent_id"
  agentType : event.agentType = field payload "agent_type"
  ts : event.ts = .float (.finite now)
  version : event.v = .int wireVersion
  short : ∀ text, event.toolInputSummary = .str text ∨ event.toolError = .str text →
    text.length ≤ summaryMaxLen

/-- A payload without a session or an event name makes no event. -/
theorem buildHookEvent_of_missing (hobject : payload.isObject = true)
    (hmissing : ¬ ((field payload "session_id").truthy = true ∧
      (field payload "hook_event_name").truthy = true)) :
    buildHookEvent repr payload now = .ok none := by
  have hfalsy : (!(field payload "session_id").truthy ||
      !(field payload "hook_event_name").truthy) = true := by
    rw [← Bool.not_and, Bool.not_eq_true']
    exact eq_false_of_ne_true fun h => hmissing (Bool.and_eq_true_iff.mp h)
  unfold buildHookEvent
  simp only [Json.get_of_isObject hobject, bind, Except.bind]
  exact if_pos hfalsy

/-- Every other payload makes one, as long as Python can print its values. -/
theorem buildHookEvent_returns (hobject : payload.isObject = true)
    (hrepr : ∀ value, ∃ text, repr value = .ok text)
    (hsession : (field payload "session_id").truthy = true)
    (hname : (field payload "hook_event_name").truthy = true) :
    ∃ event, buildHookEvent repr payload now = .ok (some event) := by
  obtain ⟨toolError, htoolError⟩ := shortenToolError_returns hrepr (field payload "tool_error")
  obtain ⟨sessionIdText, hsessionText⟩ := format_returns hrepr (field payload "session_id")
  obtain ⟨nameText, hnameText⟩ := format_returns hrepr (field payload "hook_event_name")
  obtain ⟨cwdText, hcwdText⟩ := format_returns hrepr
    (if (field payload "cwd").truthy then field payload "cwd" else .str "")
  obtain ⟨summary, hsummary⟩ := summarizeToolInput_returns hrepr (field payload "tool_input")
  unfold field at htoolError hsessionText hnameText hcwdText hsummary hsession hname
  unfold buildHookEvent
  simp only [Json.get_of_isObject hobject, bind, Except.bind, hsession, hname, htoolError,
    hsessionText, hnameText, hcwdText, hsummary]
  exact ⟨_, rfl⟩

/-- **What an event takes over from its payload.** -/
theorem built (hobject : payload.isObject = true)
    (h : buildHookEvent repr payload now = .ok (some event)) : Built repr payload now event := by
  by_cases hpresent : (field payload "session_id").truthy = true ∧
      (field payload "hook_event_name").truthy = true
  · unfold buildHookEvent at h
    simp only [Json.get_of_isObject hobject] at h
    obtain ⟨_, hsession, h⟩ := exists_of_bind_ok h
    cases hsession
    obtain ⟨_, hname, h⟩ := exists_of_bind_ok h
    cases hname
    change (if (!(field payload "session_id").truthy ||
      !(field payload "hook_event_name").truthy) = true then _ else _) = _ at h
    rw [hpresent.1, hpresent.2, if_neg (by decide)] at h
    obtain ⟨_, herror, h⟩ := exists_of_bind_ok h
    cases herror
    obtain ⟨toolError, htoolError, h⟩ := exists_of_bind_ok h
    obtain ⟨sessionIdText, hsession, h⟩ := exists_of_bind_ok h
    obtain ⟨hookEventNameText, hname, h⟩ := exists_of_bind_ok h
    obtain ⟨_, hcwd, h⟩ := exists_of_bind_ok h
    cases hcwd
    obtain ⟨cwdText, hcwdText, h⟩ := exists_of_bind_ok h
    obtain ⟨_, htool, h⟩ := exists_of_bind_ok h
    cases htool
    obtain ⟨_, hinput, h⟩ := exists_of_bind_ok h
    cases hinput
    obtain ⟨toolInputSummary, hsummary, h⟩ := exists_of_bind_ok h
    obtain ⟨_, hagent, h⟩ := exists_of_bind_ok h
    cases hagent
    obtain ⟨_, htype, h⟩ := exists_of_bind_ok h
    cases htype
    cases h
    refine
      { session := ⟨hpresent.1, sessionIdText, hsession, rfl⟩
        name := ⟨hpresent.2, hookEventNameText, hname, rfl⟩
        cwd := ⟨cwdText, hcwdText, rfl⟩
        toolName := rfl
        summary := hsummary
        toolError := htoolError
        agentId := rfl
        agentType := rfl
        ts := rfl
        version := rfl
        short := fun text htext => ?_ }
    dsimp only at htext
    rcases htext with rfl | rfl
    · exact length_summary_le hsummary
    · exact length_shortened_le htoolError
  · rw [buildHookEvent_of_missing hobject hpresent] at h
    cases h

end Emitter
end SiliconOffice
