import SiliconOffice.Daemon.WellTyped
import SiliconOffice.Emitter.HookEmitter

/-!
# From the hooks to the registry

The emitter sends each event as one datagram, the daemon decodes it and hands it to the
registry.  The two sides name the fields, drop the version and fill in the defaults each in
its own module; `registry_follows_payloads` says that they agree, so that the registry is
what `apply_event` makes of the events themselves.

`wellTyped_of_built` is what the daemon can rely on: the events of ordinary payloads have
the types that the fields of `HookEvent` declare.
-/

namespace SiliconOffice
namespace Pipeline

open Library Python Common Daemon

/-- One invocation of the hook, and where its datagram arrives. -/
structure Invocation where
  stdin : String
  sentAt : ℚ
  host : Host
  receivedAt : ℚ

variable (json : JsonModule) (repr : Json → Except PyErr String)

namespace Invocation

/-- What `build_hook_event` makes of the payload. -/
def event? (invocation : Invocation) : Option HookEvent :=
  Emitter.eventOf repr json invocation.stdin invocation.sentAt

/-- The event, with the circumstances in which the daemon handles it. -/
def made (invocation : Invocation) : Option (HookEvent × Host × ℚ) :=
  (invocation.event? json repr).map fun event => (event, invocation.host, invocation.receivedAt)

/-- The datagram that leaves the emitter, with the circumstances in which it arrives. -/
def sent (invocation : Invocation) : Option (Bytes × Host × ℚ) :=
  (Emitter.main repr json invocation.stdin invocation.sentAt).map fun data =>
    (data, invocation.host, invocation.receivedAt)

end Invocation

/-- The daemon after a datagram. -/
def received (registry : SessionRegistry) (datagram : Bytes × Host × ℚ) : SessionRegistry :=
  after ((datagramReceived repr json datagram.2.1 datagram.1 datagram.2.2).run registry)

/-- The registry after an event. -/
def applied (registry : SessionRegistry) (event : HookEvent × Host × ℚ) : SessionRegistry :=
  after ((SessionRegistry.applyEvent repr event.2.1 event.1 event.2.2).run registry)

variable {json repr} {event : HookEvent} {registry : SessionRegistry}

/-! ## One event -/

theorem rstripNewlines_line {line : Bytes} (h : newline ∉ line) :
    rstripNewlines (line ++ [newline]) = line := by
  unfold rstripNewlines
  rw [List.reverse_append, List.reverse_singleton, List.singleton_append, List.dropWhile_cons,
    if_pos (BEq.refl newline)]
  cases hline : line.reverse with
  | nil =>
      rw [List.reverse_eq_nil_iff.mp hline]
      rfl
  | cons last rest =>
      have hlast : ¬ (last == newline) = true := by
        intro hsame
        refine h (List.mem_reverse.mp ?_)
        rw [hline, ← eq_of_beq hsame]
        exact List.mem_cons_self
      rw [List.dropWhile_cons, if_neg hlast, ← hline, List.reverse_reverse]

/-- An encoded message is decoded from its datagram. -/
theorem decodeMessage_datagram {obj : Json} (h : (StreamItem.message obj).Admissible json) :
    decodeMessage json (rstripNewlines (encodeMessage json obj)) = .ok obj := by
  rw [encodeMessage_eq, rstripNewlines_line h.2.2]
  exact StreamItem.decodeMessage_line h

theorem built_of_eventOf {raw : String} {now : ℚ}
    (h : Emitter.eventOf repr json raw now = some event) :
    Emitter.Built repr (Emitter.readPayload json raw) now event := by
  unfold Emitter.eventOf at h
  cases hbuilt : Emitter.buildHookEvent repr (Emitter.readPayload json raw) now with
  | error exception =>
      rw [hbuilt] at h
      cases h
  | ok made =>
      rw [hbuilt] at h
      cases h
      exact Emitter.built (Emitter.isObject_readPayload json raw) hbuilt

/-- An ordinary payload makes an event, as long as Python can print its values. -/
theorem eventOf_returns {raw : String} {now : ℚ}
    (hrepr : ∀ value, ∃ text, repr value = .ok text)
    (hsession : (Emitter.field (Emitter.readPayload json raw) "session_id").truthy = true)
    (hname : (Emitter.field (Emitter.readPayload json raw) "hook_event_name").truthy = true) :
    ∃ event, Emitter.eventOf repr json raw now = some event := by
  obtain ⟨event, hbuilt⟩ := @Emitter.buildHookEvent_returns repr _ now
    (Emitter.isObject_readPayload json raw) hrepr hsession hname
  unfold Emitter.eventOf
  rw [hbuilt]
  exact ⟨event, rfl⟩

theorem eventOf_of_missing {raw : String} {now : ℚ}
    (hmissing : ¬ ((Emitter.field (Emitter.readPayload json raw) "session_id").truthy = true ∧
      (Emitter.field (Emitter.readPayload json raw) "hook_event_name").truthy = true)) :
    Emitter.eventOf repr json raw now = none := by
  unfold Emitter.eventOf
  rw [Emitter.buildHookEvent_of_missing (Emitter.isObject_readPayload json raw) hmissing]

/-- The reader and the writer of an event have the same version. -/
theorem fromDict_of_built {payload : Json} {now : ℚ} (h : Emitter.Built repr payload now event) :
    HookEvent.fromDict event.toDict = .ok event := by
  rw [HookEvent.fromDict_toDict, ← h.version]

/-- The event of an ordinary payload has the types that its fields declare. -/
theorem wellTyped_of_built {payload : Json} {now : ℚ} {text : String}
    (h : Emitter.Built repr payload now event)
    (hsession : Emitter.field payload "session_id" = .str text)
    (htool : IsOptText (Emitter.field payload "tool_name"))
    (hagent : IsOptText (Emitter.field payload "agent_type")) : WellTyped event := by
  obtain ⟨htruthy, written, hwritten, hid⟩ := h.session
  rw [hsession] at htruthy hwritten
  cases hwritten
  obtain ⟨cwd, -, hcwd⟩ := h.cwd
  exact ⟨⟨text, bne_iff_ne.mp htruthy, hid⟩, .inr ⟨cwd, hcwd⟩, h.toolName ▸ htool,
    h.agentType ▸ hagent⟩

/-- The daemon makes of the datagram of an event what the registry makes of the event. -/
theorem received_encode {payload : Json} {sentAt : ℚ} (h : Emitter.Built repr payload sentAt event)
    (hjson : (StreamItem.message event.toDict).Admissible json) (host : Host) (now : ℚ) :
    received json repr registry (encodeMessage json event.toDict, host, now) =
      applied repr registry (event, host, now) := by
  have hevent := fromDict_of_built h
  unfold received applied
  rw [after_datagramReceived (decodeMessage_datagram hjson) (isNone_of_fromDict hevent)]
  exact (run_onEvent_of_event hevent).2

/-! ## A list of hooks -/

/-- **The registry follows the payloads.**  What the daemon makes of the datagrams is what
`apply_event` makes of the events; every event has the fields of its payload and comes back
from its datagram field for field; a payload with a session and an event name makes one, and a
payload without contributes nothing. -/
theorem registry_follows_payloads (json : JsonModule) (repr : Json → Except PyErr String)
    (invocations : List Invocation) (registry : SessionRegistry)
    (hjson : ∀ invocation ∈ invocations, ∀ event, invocation.event? json repr = some event →
      (StreamItem.message event.toDict).Admissible json) :
    (invocations.filterMap (Invocation.sent json repr)).foldl (received json repr) registry =
        (invocations.filterMap (Invocation.made json repr)).foldl (applied repr) registry ∧
      (∀ invocation ∈ invocations, ∀ event, invocation.event? json repr = some event →
        ∃ data, Emitter.main repr json invocation.stdin invocation.sentAt = some data ∧
          decodeMessage json (rstripNewlines data) = .ok event.toDict ∧
          HookEvent.fromDict event.toDict = .ok event ∧
          Emitter.Built repr (Emitter.readPayload json invocation.stdin) invocation.sentAt
            event) ∧
      ((∀ value, ∃ text, repr value = .ok text) → ∀ invocation ∈ invocations,
        (Emitter.field (Emitter.readPayload json invocation.stdin) "session_id").truthy = true →
        (Emitter.field (Emitter.readPayload json invocation.stdin)
          "hook_event_name").truthy = true →
        ∃ event, invocation.event? json repr = some event) ∧
      ∀ invocation ∈ invocations,
        ¬ ((Emitter.field (Emitter.readPayload json invocation.stdin) "session_id").truthy = true ∧
          (Emitter.field (Emitter.readPayload json invocation.stdin)
            "hook_event_name").truthy = true) →
        invocation.event? json repr = none := by
  refine ⟨?_, fun invocation hmem event hevent => ?_,
    fun hrepr invocation _ => eventOf_returns hrepr, fun invocation _ => eventOf_of_missing⟩
  · rw [List.foldl_filterMap, List.foldl_filterMap]
    refine List.foldl_ext _ _ registry fun left invocation hmem => ?_
    unfold Invocation.sent Invocation.made Emitter.main
    cases hevent : invocation.event? json repr with
    | none =>
        rw [show Emitter.eventOf repr json invocation.stdin invocation.sentAt = none from hevent]
        rfl
    | some event =>
        rw [show Emitter.eventOf repr json invocation.stdin invocation.sentAt = some event
          from hevent]
        exact received_encode (built_of_eventOf hevent) (hjson invocation hmem event hevent) _ _
  · refine ⟨encodeMessage json event.toDict, ?_,
      decodeMessage_datagram (hjson invocation hmem event hevent),
      fromDict_of_built (built_of_eventOf hevent), built_of_eventOf hevent⟩
    unfold Emitter.main
    rw [show Emitter.eventOf repr json invocation.stdin invocation.sentAt = some event from hevent]
    rfl

/-! ### A prompt, and a payload without a session -/

def promptText : String :=
  "\x7b\"session_id\":\"s1\",\"hook_event_name\":\"UserPromptSubmit\"\x7d"

def promptEventText : String :=
  "\x7b\"session_id\":\"s1\",\"hook_event_name\":\"UserPromptSubmit\",\"cwd\":\"\"," ++
    "\"tool_name\":null,\"tool_input_summary\":null,\"tool_error\":null," ++
    "\"agent_id\":null,\"agent_type\":null,\"ts\":1.0,\"v\":1\x7d"

def promptEvent : HookEvent where
  sessionId := .str "s1"
  hookEventName := .str "UserPromptSubmit"
  ts := .float (.finite 1)

/-- A `json` module that knows these texts. -/
def promptJson : JsonModule where
  dumps _ := promptEventText
  parse text :=
    if text = promptText then
      .ok (.obj [("session_id", .str "s1"), ("hook_event_name", .str "UserPromptSubmit")])
    else if text = promptEventText then .ok promptEvent.toDict
    else if text = "\x7b\x7d" then .ok (.obj [])
    else .error .jsonDecodeError

def promptInvocations : List Invocation :=
  [{ stdin := "\x7b\x7d", sentAt := 0, host := quietHost, receivedAt := 0 },
   { stdin := promptText, sentAt := 1, host := quietHost, receivedAt := 2 }]

set_option maxRecDepth 4000 in
theorem registry_follows_payloads_prompt :
    (promptInvocations.filterMap (Invocation.sent promptJson fun _ => .ok "")).foldl
        (received promptJson fun _ => .ok "") .fresh =
      (promptInvocations.filterMap (Invocation.made promptJson fun _ => .ok "")).foldl
        (applied fun _ => .ok "") .fresh := by
  refine (registry_follows_payloads promptJson (fun _ => .ok "") promptInvocations .fresh
    fun invocation hmem event hevent => ?_).1
  rcases List.mem_cons.mp hmem with rfl | hrest
  · cases hevent
  · obtain rfl := List.mem_singleton.mp hrest
    obtain rfl : promptEvent = event := Option.some.inj hevent
    exact ⟨rfl, rfl, by decide⟩

end Pipeline
end SiliconOffice
