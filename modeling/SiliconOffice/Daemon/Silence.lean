import SiliconOffice.Library.Runs
import SiliconOffice.Daemon.UdpListener

/-!
# Edits that nobody is told of

`on_event` broadcasts an `upsert` and a `remove`, and says nothing of a `noop`.  A `noop` is
what `apply_event` reports for a name that it does not map; the `cwd` of the event has been
assigned by then.

* `run_applyEvent_unmapped` — all that such an event does;
* `run_onEvent_untold_iff` — these are the events of a tracked session that nobody is told of;
* `silent_iff` — when the record that the frontends were sent stays the one they would be sent;
* `told_of_run` — and so over the whole life of a session.
-/

namespace SiliconOffice
namespace Daemon

open Library Python Common

variable {repr : Json → Except PyErr String} {host : Host} {event : HookEvent} {now : ℚ}
  {registry : SessionRegistry} {key : DictKey} {record : AgentRecord}

/-! ## Events that are not mapped -/

/-- An event of a tracked session that is not mapped raises nothing, and the record that the
registry holds has the `cwd` of the event. -/
theorem SessionRegistry.run_applyEvent_unmapped (hkey : event.sessionId.hash = .ok key)
    (htracked : registry.get? key = some record)
    (hname : HookName.ofJson event.hookEventName = none) :
    (applyEvent repr host event now).run registry =
      .ok (some (withCwd false event record), .noop)
        (registry.store key (withCwd false event record)) := by
  rw [run_applyEvent_tracked hkey htracked, run_transition_unmapped repr hname]

/-- What `SessionRegistry.apply_event` can report, with the registry that it leaves. -/
inductive Reported (registry : SessionRegistry) (event : HookEvent) (key : DictKey) :
    Option AgentRecord → Op → SessionRegistry → Prop
  | noop {record : AgentRecord} (tracked : registry.get? key = some record)
      (unmapped : HookName.ofJson event.hookEventName = none) :
      Reported registry event key (some (withCwd false event record)) .noop
        (registry.store key (withCwd false event record))
  | upsert (record : AgentRecord) :
      Reported registry event key (some record) .upsert (registry.store key record)
  | remove : Reported registry event key none .remove (registry.discard key)

theorem reported_of_applyEvent {kept : Option AgentRecord} {op : Op} {final : SessionRegistry}
    (hkey : event.sessionId.hash = .ok key)
    (hrun : (SessionRegistry.applyEvent repr host event now).run registry = .ok (kept, op) final) :
    Reported registry event key kept op final := by
  cases htracked : registry.get? key with
  | some record =>
      rw [SessionRegistry.run_applyEvent_tracked hkey htracked] at hrun
      cases htransition : (transition repr false event now).run record with
      | error exception object => simp [htransition] at hrun
      | ok op' object =>
          have hop := op_of_transition repr htransition
          rw [htransition] at hrun
          cases op' with
          | noop =>
              have hunmapped := (opOf_eq_noop_iff.mp hop.symm).2
              rw [run_transition_unmapped repr hunmapped] at htransition
              cases htransition
              cases hrun
              exact .noop htracked hunmapped
          | remove =>
              cases hrun
              exact .remove
          | upsert =>
              cases hresolved : resolved host object with
              | error exception => simp [hresolved] at hrun
              | ok announced =>
                  simp only [hresolved] at hrun
                  cases hrun
                  exact .upsert announced
  | none =>
      rw [SessionRegistry.run_applyEvent_new hkey htracked] at hrun
      cases hfresh : newRecord event now with
      | error exception => simp [hfresh] at hrun
      | ok fresh =>
          simp only [hfresh] at hrun
          cases htransition : (transition repr true event now).run fresh with
          | error exception object => simp [htransition] at hrun
          | ok op' object =>
              have hop := op_of_transition repr htransition
              rw [htransition] at hrun
              cases op' with
              -- a new session is introduced even by an event that is not mapped
              | noop => cases (opOf_eq_noop_iff.mp hop.symm).1
              | remove =>
                  cases hrun
                  exact .remove
              | upsert =>
                  cases hresolved : resolved host object with
                  | error exception => simp [hresolved] at hrun
                  | ok announced =>
                      simp only [hresolved] at hrun
                      cases hrun
                      exact .upsert announced

/-- Only an event that is not mapped is reported as a `noop`. -/
theorem unmapped_of_noop {kept : Option AgentRecord} {final : SessionRegistry}
    (hkey : event.sessionId.hash = .ok key)
    (hrun : (SessionRegistry.applyEvent repr host event now).run registry =
      .ok (kept, .noop) final) :
    HookName.ofJson event.hookEventName = none := by
  cases reported_of_applyEvent hkey hrun with
  | noop tracked unmapped => exact unmapped

/-- **Nobody is told of an event of a tracked session exactly when its name is not mapped.** -/
theorem run_onEvent_untold_iff {payload : Json} (hevent : HookEvent.fromDict payload = .ok event)
    (hkey : event.sessionId.hash = .ok key) (htracked : registry.get? key = some record) :
    (∃ final, (onEvent repr host payload now).run registry = .ok none final) ↔
      HookName.ofJson event.hookEventName = none := by
  unfold onEvent
  rw [hevent]
  dsimp only
  rw [EStateM.run_bind]
  constructor
  · rintro ⟨final, hrun⟩
    cases happly : (SessionRegistry.applyEvent repr host event now).run registry with
    | error exception state =>
        rw [happly] at hrun
        cases hrun
    | ok result state =>
        obtain ⟨kept, op⟩ := result
        rw [happly] at hrun
        cases op with
        | noop => exact unmapped_of_noop hkey happly
        | upsert => cases hrun
        | remove => cases hrun
  · intro hname
    rw [SessionRegistry.run_applyEvent_unmapped hkey htracked hname]
    exact ⟨_, rfl⟩

/-! ## What the frontends were sent -/

/-- If the event is reported as a `noop`, `to_wire_dict` gives what it gave before. -/
def SilentlyKept (repr : Json → Except PyErr String) (host : Host) (event : HookEvent) (now : ℚ)
    (registry : SessionRegistry) (key : DictKey) (record : AgentRecord) : Prop :=
  ∀ kept final,
    (SessionRegistry.applyEvent repr host event now).run registry = .ok (kept, .noop) final →
    (final.get? key).map AgentRecord.toWireDict = some record.toWireDict

theorem toWireDict_withCwd_eq_iff :
    (withCwd false event record).toWireDict = record.toWireDict ↔
      event.cwd.truthy = false ∨ event.cwd = record.cwd := by
  rw [AgentRecord.toWireDict_eq_iff, AgentRecord.ext_iff]
  simp only [withCwd_sessionId, withCwd_projectName, withCwd_pid, withCwd_entrypoint,
    withCwd_state, withCwd_actionLabel, withCwd_stateSince, withCwd_agentKind,
    withCwd_parentSessionId, withCwd_cwd_eq_iff, true_and, and_true]
  cases event.cwd.truthy with
  | false => simp
  | true => simp [eq_comm]

/-- **When a change goes unannounced.**  A `noop` leaves every field that the frontends are
sent as it was exactly when the event brings no `cwd`, or the one that the record has; an
event whose name is mapped is never a `noop`. -/
theorem silent_iff (hkey : event.sessionId.hash = .ok key)
    (htracked : registry.get? key = some record) :
    SilentlyKept repr host event now registry key record ↔
      HookName.ofJson event.hookEventName ≠ none ∨ event.cwd.truthy = false ∨
        event.cwd = record.cwd := by
  cases hname : HookName.ofJson event.hookEventName with
  | some name =>
      refine iff_of_true (fun kept final hrun => ?_) (.inl (by simp))
      have hunmapped := unmapped_of_noop hkey hrun
      rw [hname] at hunmapped
      cases hunmapped
  | none =>
      have hrun := @SessionRegistry.run_applyEvent_unmapped repr host event now registry key
        record hkey htracked hname
      have hlookup : (registry.store key (withCwd false event record)).get? key =
          some (withCwd false event record) := by simp
      rw [← toWireDict_withCwd_eq_iff]
      constructor
      · intro hkept
        have hsame := hkept _ _ hrun
        rw [hlookup] at hsame
        exact .inr (Option.some.inj hsame)
      · rintro (habsurd | hsame) kept final hfinal
        · exact absurd rfl habsurd
        · rw [hrun] at hfinal
          cases hfinal
          rw [hlookup, Option.map_some, hsame]

/-! ### A directory that nobody hears of -/

/-- A tracked session. -/
def trackedRecord : AgentRecord where
  sessionId := .str "s1"
  projectName := .str "proj"
  cwd := .str "/tmp/proj"
  pid := .int 7
  entrypoint := .str "cli"
  state := .working
  actionLabel := "Bash Execution"
  stateSince := 1

def trackedRegistry : SessionRegistry := SessionRegistry.fresh.store (.str "s1") trackedRecord

/-- An event whose name `apply_event` does not map. -/
def futureEvent (cwd : String) : HookEvent where
  sessionId := .str "s1"
  hookEventName := .str "SomeFutureHookEvent"
  cwd := .str cwd

/-- Without a `cwd` of its own such an event changes nothing. -/
theorem silent_without_cwd :
    SilentlyKept (fun _ => .ok "") quietHost (futureEvent "") 99 trackedRegistry (.str "s1")
      trackedRecord :=
  (silent_iff rfl rfl).mpr (.inr (.inl rfl))

/-- With another `cwd` it changes the `cwd` of the record, and is a `noop` all the same. -/
theorem moved_in_silence :
    ¬ ∀ (repr : Json → Except PyErr String) (host : Host) (event : HookEvent) (now : ℚ)
      (registry : SessionRegistry) (key : DictKey) (record : AgentRecord),
      event.sessionId.hash = .ok key → registry.get? key = some record →
        SilentlyKept repr host event now registry key record := by
  intro hclaim
  have hkept := hclaim (fun _ => .ok "") quietHost (futureEvent "/tmp/other") 99 trackedRegistry
    (.str "s1") trackedRecord rfl rfl _ _ rfl
  have hcwd := congrArg (fun sent =>
    sent.bind fun dict => (dict.get? "cwd").map fun cwd => cwd.isText "/tmp/proj") hkept
  exact absurd hcwd (by decide)

/-! ## The life of a session -/

/-- The daemon, with the record of one session as the last broadcast about it gave it. -/
structure Audience where
  registry : SessionRegistry
  told : Option Json

/-- A payload that reaches `on_event`, and when. -/
structure Payload where
  host : Host
  body : Json
  now : ℚ

namespace Audience

/-- One call of `on_event` that raises nothing. -/
def hear (repr : Json → Except PyErr String) (audience : Audience) (payload : Payload) :
    Option Audience :=
  match (onEvent repr payload.host payload.body payload.now).run audience.registry with
  | .ok (some call) final => some ⟨final, call.agent.map AgentRecord.toWireDict⟩
  | .ok none final => some ⟨final, audience.told⟩
  | .error _ _ => none

/-- The payload is about the session, and if nobody is told of it there is nothing to tell. -/
def Heeds (key : DictKey) (audience : Audience) (payload : Payload) : Prop :=
  ∀ event, HookEvent.fromDict payload.body = .ok event → event.sessionId.hash = .ok key ∧
    ∀ record, audience.registry.get? key = some record →
      HookName.ofJson event.hookEventName ≠ none ∨ event.cwd.truthy = false ∨
        event.cwd = record.cwd

/-- The last broadcast gave the record that the registry has. -/
def UpToDate (key : DictKey) (audience : Audience) : Prop :=
  audience.told = (audience.registry.get? key).map AgentRecord.toWireDict

end Audience

/-- One call of `on_event` that raises nothing leaves the audience up to date. -/
theorem Audience.UpToDate.hear {audience next : Audience} {payload : Payload}
    (h : audience.UpToDate key) (hheeds : audience.Heeds key payload)
    (hhear : Audience.hear repr audience payload = some next) : next.UpToDate key := by
  unfold Audience.hear onEvent at hhear
  cases hevent : HookEvent.fromDict payload.body with
  | error exception =>
      rw [hevent] at hhear
      cases hhear
      exact h
  | ok event =>
      obtain ⟨hkey, hquiet⟩ := hheeds event hevent
      simp only [hevent, EStateM.run_bind] at hhear
      cases happly : (SessionRegistry.applyEvent repr payload.host event payload.now).run
          audience.registry with
      | error exception state => simp [happly] at hhear
      | ok result final =>
          obtain ⟨kept, op⟩ := result
          rw [happly] at hhear
          unfold Audience.UpToDate at h ⊢
          cases reported_of_applyEvent hkey happly with
          | @noop record tracked unmapped =>
              cases hhear
              have hsame := toWireDict_withCwd_eq_iff.mpr
                ((hquiet record tracked).resolve_left fun hmapped => hmapped unmapped)
              simp [h, tracked, hsame]
          | upsert record =>
              cases hhear
              simp
          | remove =>
              cases hhear
              simp

/-- **Nothing is changed in silence.**  However many events a session sees, if each of them
that is not mapped brings no `cwd`, or the one that the record has, then the last broadcast
about the session gave the record that the registry has. -/
theorem told_of_run {start final : Audience} {payloads : List Payload}
    (hrun : Run (Audience.hear repr) (Audience.Heeds key) start payloads final)
    (hstart : start.UpToDate key) : final.UpToDate key :=
  hrun.invariant hstart fun _ _ _ huptodate hheeds hhear => huptodate.hear hheeds hhear

end Daemon
end SiliconOffice
