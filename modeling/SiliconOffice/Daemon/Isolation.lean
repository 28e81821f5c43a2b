import SiliconOffice.Daemon.Session
import SiliconOffice.Daemon.Sweep
import SiliconOffice.Library.Components

/-!
# Sessions do not see each other

The registry is one dictionary, but what it holds under a session id is decided by the
seeds and events of that session and by the sweeps alone: `entry` is one step of the
registry as a single session sees it, and `registry_components` that every entry of the
registry follows it.  `sessions_isolated` draws the consequences for whole runs.
-/

namespace SiliconOffice
namespace Daemon

open Library Python Common

/-! ## Steps of the registry -/

/-- A call of a method of the registry, with the machine as it is at that moment. -/
inductive RegistryStep
  | seed (record : AgentRecord)
  | applyEvent (host : Host) (event : HookEvent) (now : ℚ)
  | resolvePendingIdentities (host : Host)
  | reapDead (host : Host)

/-- The dictionary key `s` is that of the session id. -/
def isSession (s : DictKey) (sessionId : Json) : Bool :=
  match sessionId.hash with
  | .ok key => s == key
  | .error _ => false

/-- What `_resolve_identity` leaves of a record. -/
def resolvedOrSame (host : Host) (record : AgentRecord) : AgentRecord :=
  match resolved host record with
  | .ok final => final
  | .error _ => record

namespace RegistryStep

/-- The step is a seed or an event of the session, or a sweep. -/
def concerns (s : DictKey) : RegistryStep → Bool
  | seed record => isSession s record.sessionId
  | applyEvent _ event _ => isSession s event.sessionId
  | resolvePendingIdentities _ | reapDead _ => true

/-- Events are well typed, lookups and probes return. -/
def WellFormed : RegistryStep → Prop
  | seed _ => True
  | applyEvent host event _ => ObjectFiles host ∧ WellTyped event
  | resolvePendingIdentities host => ObjectFiles host
  | reapDead host => ∀ pid, ∃ alive, isPidAlive host.kill pid = .ok alive

variable (repr : Json → Except PyErr String)

/-- A method that raises leaves what it did before. -/
def perform (registry : SessionRegistry) : RegistryStep → SessionRegistry
  | seed record => after ((SessionRegistry.seed record).run registry)
  | applyEvent host event now =>
      after ((SessionRegistry.applyEvent repr host event now).run registry)
  | resolvePendingIdentities host =>
      after ((SessionRegistry.resolvePendingIdentities host).run registry)
  | reapDead host => after ((SessionRegistry.reapDead host).run registry)

/-- The registry after a list of steps. -/
def run (steps : List RegistryStep) : SessionRegistry :=
  steps.foldl (perform repr) .fresh

/-- An event as its session sees it. -/
def eventEntry (host : Host) (event : HookEvent) (now : ℚ) (held : Option AgentRecord) :
    Option AgentRecord :=
  match Daemon.applyEvent repr held event now with
  | .ok (some record, .upsert) => some (resolvedOrSame host record)
  | .ok (record, _) => record
  | .error _ => held

/-- A step as the session `s` sees it. -/
def entry (s : DictKey) (held : Option AgentRecord) : RegistryStep → Option AgentRecord
  | seed record => if isSession s record.sessionId then some record else held
  | applyEvent host event now =>
      if isSession s event.sessionId then eventEntry repr host event now held else held
  | resolvePendingIdentities host => held.map (resolvedOrSame host)
  | reapDead host => held.filter fun record => decide (probe host.kill record.pid = .ok true)

end RegistryStep

variable {repr : Json → Except PyErr String} {host : Host} {event : HookEvent} {now : ℚ}
  {registry : SessionRegistry}

/-! ## One step -/

theorem isSession_of_hash {sessionId : Json} {key : DictKey} (h : sessionId.hash = .ok key)
    (s : DictKey) : isSession s sessionId = (s == key) := by
  unfold isSession
  rw [h]

theorem resolved_eq (h : ObjectFiles host) (record : AgentRecord) :
    resolved host record = .ok (resolvedOrSame host record) := by
  obtain ⟨final, hfinal⟩ := resolved_returns h record
  unfold resolvedOrSame
  rw [hfinal]

theorem get?_seed (record : AgentRecord) (s : DictKey) :
    (after ((SessionRegistry.seed record).run registry)).get? s =
      if isSession s record.sessionId then some record else registry.get? s := by
  unfold SessionRegistry.seed isSession
  rw [EStateM.run_bind]
  cases record.sessionId.hash with
  | error exception => rfl
  | ok key => exact SessionRegistry.get?_store ..

/-- What the registry is left with under a key. -/
def put (registry : SessionRegistry) (key : DictKey) : Option AgentRecord → SessionRegistry
  | some record => registry.store key record
  | none => registry.discard key

theorem get?_put (key : DictKey) (held : Option AgentRecord) (s : DictKey) :
    (put registry key held).get? s = if s == key then held else registry.get? s := by
  cases held with
  | some record => exact SessionRegistry.get?_store ..
  | none => exact SessionRegistry.get?_discard ..

/-- **An event does to its session's entry what `apply_event` does to a record**, and
nothing to the others. -/
theorem after_applyEvent (hfiles : ObjectFiles host) (htyped : WellTyped event) {key : DictKey}
    (hkey : event.sessionId.hash = .ok key) :
    after ((SessionRegistry.applyEvent repr host event now).run registry) =
      put registry key (RegistryStep.eventEntry repr host event now (registry.get? key)) := by
  unfold RegistryStep.eventEntry applyEvent
  cases hheld : registry.get? key with
  | some record =>
      rw [SessionRegistry.run_applyEvent_tracked hkey hheld]
      obtain ⟨op, object, hrun⟩ := @transition_returns repr event now htyped false record
      simp only [Option.isNone_some, bind, Except.bind, hrun]
      cases op with
      | remove => rfl
      | noop => rfl
      | upsert =>
          simp only [resolved_eq hfiles]
          rfl
  | none =>
      rw [SessionRegistry.run_applyEvent_new hkey hheld]
      obtain ⟨fresh, hfresh⟩ := @newRecord_returns event now htyped
      obtain ⟨op, object, hrun⟩ := @transition_returns repr event now htyped true fresh
      simp only [hfresh, Option.isNone_none, bind, Except.bind, hrun]
      cases op with
      | remove => rfl
      | noop => exact absurd (op_of_transition repr hrun).symm (opOf_new_ne_noop event)
      | upsert =>
          simp only [resolved_eq hfiles]
          rfl

/-- Resolving goes over every record once. -/
theorem get?_resolvePendingIdentities (hfiles : ObjectFiles host) (s : DictKey) :
    (after ((SessionRegistry.resolvePendingIdentities host).run registry)).get? s =
      (registry.get? s).map (resolvedOrSame host) := by
  change (after ((SessionRegistry.resolveAll host registry.agents.keys).run registry)).get? s = _
  cases hrun : (SessionRegistry.resolveAll host registry.agents.keys).run registry with
  | error exception left =>
      obtain ⟨key, record, -, herror⟩ := SessionRegistry.exists_of_resolveAll_error hrun
      rw [resolved_eq hfiles] at herror
      cases herror
  | ok done left =>
      rw [after_ok]
      cases hheld : registry.get? s with
      | none => exact ((SessionRegistry.related_of_resolves hrun).none_iff s).mpr hheld
      | some record =>
          obtain ⟨listed, hlisted, hkey, -⟩ := OrderedDict.get?_eq_some_iff.mp
            (show registry.agents.get? s = some record from hheld)
          obtain ⟨final, hfinal, hget⟩ := SessionRegistry.resolveAll_resolves hrun
            (List.mem_map_of_mem hlisted) (BEq.symm hkey) hheld
          rw [resolved_eq hfiles] at hfinal
          rw [hget, ← Except.ok.inj hfinal]
          rfl

/-- Reaping drops the records that are probed dead. -/
theorem get?_reapDead (hprobes : ∀ pid, ∃ alive, isPidAlive host.kill pid = .ok alive)
    (s : DictKey) :
    (after ((SessionRegistry.reapDead host).run registry)).get? s =
      (registry.get? s).filter fun record => decide (probe host.kill record.pid = .ok true) := by
  rw [SessionRegistry.run_reapDead]
  cases hdead : SessionRegistry.deadAmong host.kill registry.agents.items with
  | error exception =>
      obtain ⟨item, -, herror⟩ := SessionRegistry.exists_of_deadAmong_error hdead
      obtain ⟨alive, halive⟩ := hprobes item.2.pid
      unfold probe at herror
      rw [halive] at herror
      split at herror <;> cases herror
  | ok dead =>
      rw [after_ok, SessionRegistry.get?_foldl_discard]
      cases hheld : registry.get? s with
      | none => exact ite_self none
      | some record =>
          obtain ⟨alive, halive, hreported⟩ := SessionRegistry.any_dead_iff hdead hheld
          rw [Option.filter_some, halive]
          cases alive <;> simp_all

/-- **The registry is made of its sessions.** -/
theorem registry_components (repr : Json → Except PyErr String) :
    Components (RegistryStep.perform repr) RegistryStep.WellFormed
      (fun s registry => registry.get? s) (RegistryStep.entry repr) RegistryStep.concerns := by
  constructor
  case follows =>
    intro s registry step hstep
    cases step with
    | seed record => exact get?_seed record s
    | applyEvent host event now =>
        obtain ⟨text, -, hid⟩ := hstep.2.session
        have hkey : event.sessionId.hash = .ok (.str text) := by
          rw [hid]
          rfl
        unfold RegistryStep.perform RegistryStep.entry
        dsimp only
        rw [after_applyEvent hstep.1 hstep.2 hkey, get?_put, isSession_of_hash hkey]
        split
        · rename_i hs
          rw [show registry.get? s = registry.get? (.str text) from
            registry.agents.get?_congr hs]
        · rfl
    | resolvePendingIdentities host => exact get?_resolvePendingIdentities hstep s
    | reapDead host => exact get?_reapDead hstep s
  case ignores =>
    intro s held step hconcerns
    cases step with
    | seed record => exact if_neg (by rw [show isSession s _ = _ from hconcerns]; decide)
    | applyEvent host event now =>
        exact if_neg (by rw [show isSession s _ = _ from hconcerns]; decide)
    | resolvePendingIdentities host => cases hconcerns
    | reapDead host => cases hconcerns

/-! ## The record of one session -/

theorem frame_resolvedOrSame (host : Host) (record : AgentRecord) :
    (resolvedOrSame host record).sessionId = record.sessionId ∧
      SameActivity record (resolvedOrSame host record) ∧
        (resolvedOrSame host record).labelStack = record.labelStack := by
  unfold resolvedOrSame resolved SameActivity
  split
  · rename_i final hresolved
    split at hresolved
    · split at hresolved
      · cases hresolved
      · cases hresolved
        exact ⟨rfl, ⟨rfl, rfl, rfl⟩, rfl⟩
      · cases hresolved
        split <;> exact ⟨rfl, ⟨rfl, rfl, rfl⟩, rfl⟩
    · cases hresolved
      exact ⟨rfl, ⟨rfl, rfl, rfl⟩, rfl⟩
  · exact ⟨rfl, ⟨rfl, rfl, rfl⟩, rfl⟩

/-- The entry after an event is the record of the session, identified when the event is
an upsert. -/
theorem eventEntry_eq (htyped : WellTyped event) (held : Option AgentRecord) :
    RegistryStep.eventEntry repr host event now held =
      (handle repr held event now).map fun record =>
        if opOf held.isNone event = .upsert then resolvedOrSame host record else record := by
  unfold RegistryStep.eventEntry applyEvent handle
  cases held with
  | some record =>
      obtain ⟨op, object, hrun⟩ := @transition_returns repr event now htyped false record
      simp only [Option.isNone_some, bind, Except.bind, hrun, ← op_of_transition repr hrun]
      cases op <;> rfl
  | none =>
      obtain ⟨fresh, hfresh⟩ := @newRecord_returns event now htyped
      obtain ⟨op, object, hrun⟩ := @transition_returns repr event now htyped true fresh
      have hop := op_of_transition repr hrun
      simp only [hfresh, Option.isNone_none, bind, Except.bind, hrun, ← hop]
      cases op with
      | remove => rfl
      | upsert => rfl
      | noop => exact absurd hop.symm (opOf_new_ne_noop event)

/-- The records agree in all that events read and write, but for the `cwd`. -/
def SameWork (record final : AgentRecord) : Prop :=
  SameActivity record final ∧ final.labelStack = record.labelStack

theorem sameWork_withCwd {record final : AgentRecord} (h : SameWork record final)
    (isNew : Bool) : SameWork (withCwd isNew event record) (withCwd isNew event final) := by
  simpa [SameWork, SameActivity] using h

/-- What an event does to the work of a session does not depend on its identity. -/
theorem sameWork_effect {record final : AgentRecord} (h : SameWork record final) :
    SameWork (effect repr event now record) (effect repr event now final) := by
  obtain ⟨hsame, hstack⟩ := h
  have hstacks : (effect repr event now final).labelStack =
      (effect repr event now record).labelStack := by
    rw [labelStack_effect, labelStack_effect, hstack, hsame.2.1]
  refine ⟨?_, hstacks⟩
  by_cases hstop : HookName.ofJson event.hookEventName = some .subagentStop
  · unfold effect
    rw [hstop]
    dsimp only
    rw [hstack]
    exact ⟨hsame.1, rfl, rfl⟩
  · exact sameActivity_effect hsame hstop

theorem sameWork_handle {record final : Option AgentRecord} (h : Option.Rel SameWork record final) :
    Option.Rel SameWork (handle repr record event now) (handle repr final event now) := by
  cases h with
  | none => exact rel_refl (fun record => ⟨.refl record, rfl⟩) _
  | some hsame =>
      rw [handle_some, handle_some]
      split
      · exact .none
      · exact .some (sameWork_effect (sameWork_withCwd hsame false))

theorem sameWork_trans {first second third : AgentRecord} (h : SameWork first second)
    (h' : SameWork second third) : SameWork first third :=
  ⟨⟨h'.1.1.trans h.1.1, h'.1.2.1.trans h.1.2.1, h'.1.2.2.trans h.1.2.2⟩, h'.2.trans h.2⟩

/-- The event of the session `s` that the step is, if it is one. -/
def RegistryStep.eventOf (s : DictKey) : RegistryStep → Option (HookEvent × ℚ)
  | applyEvent _ event now => if isSession s event.sessionId then some (event, now) else none
  | _ => none

/-- The step is an event or a retry of the identities. -/
def RegistryStep.Hooked : RegistryStep → Prop
  | applyEvent _ _ _ | resolvePendingIdentities _ => True
  | seed _ | reapDead _ => False

/-- One step of the session's own record and of the registry's entry for it. -/
theorem sameWork_entry {step : RegistryStep} (hstep : step.WellFormed) (hhooked : step.Hooked)
    (s : DictKey) {record held : Option AgentRecord} (hsame : Option.Rel SameWork record held) :
    Option.Rel SameWork
      (match step.eventOf s with
        | some entry => handle repr record entry.1 entry.2
        | none => record)
      (step.entry repr s held) := by
  cases step with
  | seed record => exact hhooked.elim
  | reapDead host => exact hhooked.elim
  | resolvePendingIdentities host =>
      exact rel_map_right (fun _ _ h => sameWork_trans h (frame_resolvedOrSame host _).2) hsame
  | applyEvent host event now =>
      unfold RegistryStep.entry RegistryStep.eventOf
      by_cases hown : isSession s event.sessionId = true
      · simp only [if_pos hown, eventEntry_eq hstep.2]
        refine rel_map_right (fun _ _ h => ?_) (sameWork_handle hsame)
        split
        · exact sameWork_trans h (frame_resolvedOrSame host _).2
        · exact h
      · simp only [if_neg hown]
        exact hsame

/-- **The registry holds the records of the sessions**: what it tells of a session's work is
what the session's own events make of it. -/
theorem entry_eq_recordOf {steps : List RegistryStep}
    (hsteps : ∀ step ∈ steps, step.WellFormed ∧ step.Hooked) (s : DictKey) :
    Option.Rel SameWork (recordOf repr (steps.filterMap (RegistryStep.eventOf s)))
      ((RegistryStep.run repr steps).get? s) := by
  unfold RegistryStep.run recordOf
  rw [(registry_components repr).view_foldl (fun step hstep => (hsteps step hstep).1) s,
    List.foldl_filterMap]
  refine List.foldl_rel .none fun step hmem record held hsame => ?_
  have hentry := @sameWork_entry repr step (hsteps step hmem).1 (hsteps step hmem).2 s record
    held hsame
  cases hevent : step.eventOf s with
  | none =>
      rw [hevent] at hentry
      exact hentry
  | some event =>
      rw [hevent] at hentry
      exact hentry

/-! ## Isolation -/

/-- The key names the session that the record is about. -/
def Owned (s : DictKey) (held : Option AgentRecord) : Prop :=
  ∀ record ∈ held, isSession s record.sessionId = true

theorem sessionId_effect (record : AgentRecord) :
    (effect repr event now record).sessionId = record.sessionId := by
  have hsame := (sameIdentity_dispatch repr false event now record).1
  rwa [after_dispatch] at hsame

/-- An event keeps the session id of a record, and gives a new one its own. -/
theorem sessionId_handle {held : Option AgentRecord} {final : AgentRecord}
    (h : handle repr held event now = some final) :
    final.sessionId = (held.map (·.sessionId)).getD event.sessionId := by
  cases held with
  | some record =>
      rw [handle_some] at h
      split at h
      · cases h
      · rw [← Option.some.inj h, sessionId_effect, withCwd_sessionId]
        rfl
  | none =>
      rw [handle_none] at h
      cases hnew : newRecord event now with
      | error exception =>
          rw [hnew] at h
          cases h
      | ok fresh =>
          rw [hnew] at h
          dsimp only at h
          obtain ⟨name, -, rfl⟩ := newRecord_eq_ok hnew
          split at h
          · cases h
          · split at h
            · cases h
            · rw [← Option.some.inj h, sessionId_effect]
              rfl

theorem owned_entry (s : DictKey) (held : Option AgentRecord) (step : RegistryStep)
    (hstep : step.WellFormed) (howned : Owned s held) : Owned s (step.entry repr s held) := by
  cases step with
  | seed record =>
      unfold RegistryStep.entry
      dsimp only
      split
      · rename_i hown
        exact fun final hfinal => Option.some.inj hfinal ▸ hown
      · exact howned
  | resolvePendingIdentities host =>
      intro final hfinal
      obtain ⟨record, hrecord, rfl⟩ := Option.map_eq_some_iff.mp hfinal
      rw [(frame_resolvedOrSame host record).1]
      exact howned record hrecord
  | reapDead host =>
      exact fun final hfinal => howned final (Option.eq_some_of_filter_eq_some hfinal)
  | applyEvent host event now =>
      unfold RegistryStep.entry
      dsimp only
      split
      · rename_i hown
        rw [eventEntry_eq hstep.2]
        intro final hfinal
        obtain ⟨record, hrecord, rfl⟩ := Option.map_eq_some_iff.mp hfinal
        have hid : isSession s record.sessionId = true := by
          rw [sessionId_handle hrecord]
          cases held with
          | none => exact hown
          | some before => exact howned before rfl
        split
        · rw [(frame_resolvedOrSame host record).1]
          exact hid
        · exact hid
      · exact howned

/-- The hook events of a list, under one lookup. -/
def hooksOn (host : Host) (events : List (HookEvent × ℚ)) : List RegistryStep :=
  events.map fun entry => .applyEvent host entry.1 entry.2

theorem wellFormed_hooksOn (hfiles : ObjectFiles host) {events : List (HookEvent × ℚ)}
    (hevents : ∀ entry ∈ events, WellTyped entry.1) :
    ∀ step ∈ hooksOn host events, step.WellFormed := by
  intro step hstep
  obtain ⟨entry, hentry, rfl⟩ := List.mem_map.mp hstep
  exact ⟨hfiles, hevents entry hentry⟩

/-- Interleavings of the same streams agree on the steps of each session. -/
theorem filter_hooksOn {first second : List (HookEvent × ℚ)} {s : DictKey}
    (hsame : (first.filter fun entry => isSession s entry.1.sessionId) =
      second.filter fun entry => isSession s entry.1.sessionId) :
    (hooksOn host first).filter (RegistryStep.concerns s) =
      (hooksOn host second).filter (RegistryStep.concerns s) := by
  unfold hooksOn
  rw [List.filter_map, List.filter_map]
  exact congrArg (List.map _) hsame

/-- **Sessions are isolated.**  The entry of a session is what its own seeds and events and
the sweeps make of it; every key is the session id of its record; and events that come in
another order across sessions leave the same registry. -/
theorem sessions_isolated (repr : Json → Except PyErr String) (steps : List RegistryStep)
    (hsteps : ∀ step ∈ steps, step.WellFormed) :
    (∀ s, (RegistryStep.run repr steps).get? s =
        (RegistryStep.run repr (steps.filter (RegistryStep.concerns s))).get? s) ∧
      (∀ item ∈ (RegistryStep.run repr steps).agents.items,
        isSession item.1 item.2.sessionId = true) ∧
      ∀ host first second, ObjectFiles host → (∀ entry ∈ first, WellTyped entry.1) →
        (∀ entry ∈ second, WellTyped entry.1) →
        (∀ s, (first.filter fun entry => isSession s entry.1.sessionId) =
          second.filter fun entry => isSession s entry.1.sessionId) →
        ∀ s, (RegistryStep.run repr (steps ++ hooksOn host first)).get? s =
          (RegistryStep.run repr (steps ++ hooksOn host second)).get? s := by
  have hcomponents := registry_components repr
  refine ⟨fun s => (hcomponents.view_filter hsteps s _).symm, fun item hitem => ?_, ?_⟩
  · have howned : Owned item.1 ((RegistryStep.run repr steps).get? item.1) :=
      hcomponents.invariant (fun s held step => owned_entry s held step) hsteps
        fun record hrecord => by cases hrecord
    exact howned item.2 (OrderedDict.get?_of_mem hitem)
  · intro host first second hfiles hfirst hsecond hsame s
    unfold RegistryStep.run
    rw [List.foldl_append, List.foldl_append]
    exact hcomponents.view_congr (wellFormed_hooksOn hfiles hfirst)
      (wellFormed_hooksOn hfiles hsecond) s _ (filter_hooksOn (hsame s))

/-- A machine where session `s2` has a file and no process is running. -/
def leftoverFile : Host where
  sessionFiles := [.ok (.obj [("sessionId", .str "s2"), ("pid", .int 7)])]
  kill _ := .error .processLookupError

def promptOf (session : String) : HookEvent where
  sessionId := .str session
  hookEventName := .str "UserPromptSubmit"

theorem wellTyped_promptOf {session : String} (h : session ≠ "") : WellTyped (promptOf session) :=
  ⟨⟨session, h, rfl⟩, .inr ⟨"", rfl⟩, .inl rfl, .inl rfl⟩

theorem objectFiles_leftoverFile : ObjectFiles leftoverFile := by
  intro file hfile
  obtain rfl := List.mem_singleton.mp hfile
  exact .inl ⟨_, rfl⟩

/-- Two sessions, of which a sweep drops one. -/
def sweptAside : List RegistryStep :=
  hooksOn leftoverFile [(promptOf "s1", 1), (promptOf "s2", 2)] ++ [.reapDead leftoverFile]

theorem sessions_isolated_sweptAside :
    (RegistryStep.run (fun _ => .ok "") sweptAside).get? (.str "s1") =
        (RegistryStep.run (fun _ => .ok "")
          (sweptAside.filter (RegistryStep.concerns (.str "s1")))).get? (.str "s1") ∧
      ∀ s, (RegistryStep.run (fun _ => .ok "") (sweptAside ++
            hooksOn leftoverFile [(promptOf "s1", 3), (promptOf "s2", 4)])).get? s =
          (RegistryStep.run (fun _ => .ok "") (sweptAside ++
            hooksOn leftoverFile [(promptOf "s2", 4), (promptOf "s1", 3)])).get? s := by
  have htyped : ∀ session ∈ ["s1", "s2"], WellTyped (promptOf session) := by
    intro session hsession
    refine wellTyped_promptOf ?_
    rintro rfl
    exact absurd hsession (by decide)
  have hone := htyped "s1" (by decide)
  have htwo := htyped "s2" (by decide)
  have hsteps : ∀ step ∈ sweptAside, step.WellFormed := by
    intro step hstep
    rcases List.mem_append.mp hstep with hhook | hreap
    · exact wellFormed_hooksOn objectFiles_leftoverFile (by simp [hone, htwo]) step hhook
    · obtain rfl := List.mem_singleton.mp hreap
      intro pid
      unfold isPidAlive
      split <;> exact ⟨false, rfl⟩
  obtain ⟨hfiltered, -, hreordered⟩ := sessions_isolated (fun _ => .ok "") sweptAside hsteps
  refine ⟨hfiltered (.str "s1"), hreordered leftoverFile _ _ objectFiles_leftoverFile
    (by simp [hone, htwo]) (by simp [hone, htwo]) fun s => ?_⟩
  -- no key is that of both sessions
  have hapart : ¬ (isSession s (.str "s1") = true ∧ isSession s (.str "s2") = true) := by
    rintro ⟨hs, hs'⟩
    rw [isSession_of_hash rfl] at hs hs'
    rw [DictKey.beq_str_iff.mp hs] at hs'
    exact absurd hs' (by decide)
  simp only [promptOf, List.filter_cons, List.filter_nil]
  cases hs : isSession s (.str "s1") with
  | false => rfl
  | true =>
      rw [eq_false_of_ne_true fun hs' => hapart ⟨hs, hs'⟩]
      rfl

end Daemon
end SiliconOffice
