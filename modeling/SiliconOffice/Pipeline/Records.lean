import SiliconOffice.Daemon.Session
import SiliconOffice.Pipeline.Truth

/-!
# What holds of every record

A property of records that events and session files keep holds of every record that the daemon
has anything to do with: those of the registry, those that wait in a scheduled diff, and those
in the messages that are on their way or have been sent (`everywhere_of_run`).  Nothing is asked
of the datagrams; an event that raises half-way counts with what it has edited by then.
-/

namespace SiliconOffice
namespace Pipeline

open Library Python Common Daemon EventLoop

variable (repr : Json → Except PyErr String) (floatText : PyFloat → String)
  (holds : AgentRecord → Prop)

/-! ## What keeps the property -/

/-- Finding the session file of a record keeps the property. -/
def KeptBySearch (host : Host) : Prop :=
  ∀ record final, holds record → resolved host record = .ok final → holds final

/-- The event keeps it, and the records that it introduces have it. -/
structure KeptByEvent (event : HookEvent) : Prop where
  edits : ∀ record now, holds record →
    holds (effect repr event now (withCwd false event record))
  introduces : ∀ fresh now, newRecord event now = .ok fresh → holds (effect repr event now fresh)

/-- The action keeps it. -/
def Keeps (_ : EventLoop) : Daemon.Action → Prop
  | .event host payload _ =>
      KeptBySearch holds host ∧
        ∀ event, HookEvent.fromDict payload = .ok event → KeptByEvent repr holds event
  | .sweep host => KeptBySearch holds host
  | _ => True

/-! ## Where records are -/

/-- All records of the registry have the property. -/
def AllHold (registry : SessionRegistry) : Prop :=
  ∀ key record, registry.get? key = some record → holds record

/-- A message of the daemon all records of which have it. -/
inductive Tells : Json → Prop
  | diff (sid : Json) (op : Op) (agent : Option AgentRecord) (ts : ℚ)
      (told : ∀ record ∈ agent, holds record) : Tells (makeDiffMessage sid op agent ts)
  | snapshot (registry : SessionRegistry) (ts : ℚ) (told : AllHold holds registry) :
      Tells (makeSnapshotMessage floatText registry.agents ts)

variable {repr floatText holds} {registry left : SessionRegistry} {key : DictKey}
  {record : AgentRecord} {host : Host} {event : HookEvent} {payload : Json} {now : ℚ}
  {d next planned source : EventLoop} {action : Daemon.Action}
  {written : Option (Writer × Message)}

theorem AllHold.store (h : AllHold holds registry) (hrecord : holds record) :
    AllHold holds (registry.store key record) := by
  intro other found hget
  rw [SessionRegistry.get?_store] at hget
  split at hget
  · cases hget
    exact hrecord
  · exact h other found hget

theorem AllHold.discard (h : AllHold holds registry) : AllHold holds (registry.discard key) := by
  intro other found hget
  rw [SessionRegistry.get?_discard] at hget
  split at hget
  · cases hget
  · exact h other found hget

theorem AllHold.of_resolves (h : AllHold holds registry) (hhost : KeptBySearch holds host)
    (hrelated : OrderedDict.Related (Resolves host) registry.agents left.agents) :
    AllHold holds left := by
  intro key final hfinal
  obtain ⟨record, hrecord, hresolves⟩ := hrelated.exists_left hfinal
  rcases hresolves with rfl | hresolved
  · exact h key final hrecord
  · exact hhost record final (h key record hrecord) hresolved

theorem AllHold.discardAll (h : AllHold holds registry) (dead : List DictKey) :
    AllHold holds (dead.foldl SessionRegistry.discard registry) := by
  induction dead generalizing registry with
  | nil => exact h
  | cons sid rest ih => exact ih h.discard

/-! ## An event -/

theorem KeptByEvent.tracked (h : KeptByEvent repr holds event) (now : ℚ)
    (hrecord : holds record) :
    holds (after ((transition repr false event now).run record)) := by
  rw [after_transition]
  exact h.edits record now hrecord

theorem KeptByEvent.introduced (h : KeptByEvent repr holds event) {fresh : AgentRecord}
    (hfresh : newRecord event now = .ok fresh) :
    holds (after ((transition repr true event now).run fresh)) := by
  rw [after_transition]
  exact h.introduces fresh now hfresh

/-- An outcome of `apply_event` in which every record has the property. -/
inductive Leaves (holds : AgentRecord → Prop) :
    EStateM.Result PyErr SessionRegistry (Option AgentRecord × Op) → Prop
  | raised (exception : PyErr) {left : SessionRegistry} (kept : AllHold holds left) :
      Leaves holds (.error exception left)
  | dropped (op : Op) {left : SessionRegistry} (kept : AllHold holds left) :
      Leaves holds (.ok (none, op) left)
  | returned (op : Op) {left : SessionRegistry} {record : AgentRecord} (kept : AllHold holds left)
      (has : holds record) : Leaves holds (.ok (some record, op) left)

theorem leaves_applyEvent (h : AllHold holds registry) (hevent : KeptByEvent repr holds event)
    (hhost : KeptBySearch holds host) (now : ℚ) :
    Leaves holds ((SessionRegistry.applyEvent repr host event now).run registry) := by
  cases hkey : event.sessionId.hash with
  | error exception =>
      rw [SessionRegistry.run_applyEvent_unhashable hkey]
      exact .raised exception h
  | ok key =>
      cases htracked : registry.get? key with
      | some existing =>
          have hobject := hevent.tracked now (h key existing htracked)
          rw [SessionRegistry.run_applyEvent_tracked hkey htracked]
          cases hrun : (transition repr false event now).run existing with
          | error exception object =>
              rw [hrun] at hobject
              exact .raised exception (h.store hobject)
          | ok op object =>
              rw [hrun] at hobject
              cases op with
              | remove => exact .dropped .remove h.discard
              | noop => exact .returned .noop (h.store hobject) hobject
              | upsert =>
                  dsimp only
                  cases hresolved : resolved host object with
                  | error exception => exact .raised exception (h.store hobject)
                  | ok final =>
                      have hfinal := hhost object final hobject hresolved
                      exact .returned .upsert (h.store hfinal) hfinal
      | none =>
          rw [SessionRegistry.run_applyEvent_new hkey htracked]
          cases hnew : newRecord event now with
          | error exception => exact .raised exception h
          | ok fresh =>
              have hobject := hevent.introduced hnew
              dsimp only
              cases hrun : (transition repr true event now).run fresh with
              | error exception object => exact .raised exception h
              | ok op object =>
                  rw [hrun] at hobject
                  cases op with
                  | remove => exact .dropped .remove h.discard
                  | noop => exact .returned .noop h hobject
                  | upsert =>
                      dsimp only
                      cases hresolved : resolved host object with
                      | error exception => exact .raised exception h
                      | ok final =>
                          have hfinal := hhost object final hobject hresolved
                          exact .returned .upsert (h.store hfinal) hfinal

theorem Leaves.kept {outcome : EStateM.Result PyErr SessionRegistry (Option AgentRecord × Op)}
    (h : Leaves holds outcome) : AllHold holds (after outcome) := by
  cases h with
  | raised exception kept => exact kept
  | dropped op kept => exact kept
  | returned op kept has => exact kept

/-- What a datagram leaves, and what is scheduled for it. -/
theorem allHold_onEvent (h : AllHold holds registry) (hhost : KeptBySearch holds host)
    (hevent : ∀ event, HookEvent.fromDict payload = .ok event → KeptByEvent repr holds event)
    (now : ℚ) :
    AllHold holds (after ((onEvent repr host payload now).run registry)) ∧
      ∀ call left, (onEvent repr host payload now).run registry = .ok (some call) left →
        ∀ record ∈ call.agent, holds record := by
  unfold onEvent
  cases hdecoded : HookEvent.fromDict payload with
  | error exception => exact ⟨h, fun call left hrun => by cases hrun⟩
  | ok event =>
      have hleaves := leaves_applyEvent h (hevent event hdecoded) hhost now
      dsimp only
      rw [EStateM.run_bind]
      cases hrun : (SessionRegistry.applyEvent repr host event now).run registry with
      | error exception left =>
          rw [hrun] at hleaves
          exact ⟨hleaves.kept, fun call left hother => by cases hother⟩
      | ok outcome left =>
          rw [hrun] at hleaves
          obtain ⟨record, op⟩ := outcome
          have hkept : AllHold holds left := hleaves.kept
          have htold : ∀ found ∈ record, holds found := by
            intro found hfound
            cases hleaves with
            | dropped op kept => cases hfound
            | returned op kept has =>
                cases hfound
                exact has
          cases op with
          | upsert =>
              refine ⟨hkept, fun call left hother => ?_⟩
              cases hother
              exact htold
          | remove =>
              refine ⟨hkept, fun call left hother => ?_⟩
              cases hother
              exact htold
          | noop => exact ⟨hkept, fun call left hother => by cases hother⟩

theorem allHold_editedBy (h : AllHold holds registry)
    (hevent : ∀ event, HookEvent.fromDict payload = .ok event → KeptByEvent repr holds event)
    (now : ℚ) :
    AllHold holds (editedBy repr payload now registry) := by
  unfold editedBy
  split
  · exact h
  · rename_i event hdecoded
    split
    · exact h
    · split
      · exact h
      · rename_i existing htracked
        exact h.store ((hevent event hdecoded).tracked now (h _ existing htracked))

/-! ## A step of the event loop -/

theorem holds_refresh {edited : SessionRegistry} (hedited : AllHold holds edited)
    (hleft : AllHold holds left) {waiting : List Scheduled}
    (h : ∀ task, .diff task ∈ waiting → ∀ record ∈ task.agent, holds record) (task : DiffTask)
    (htask : .diff task ∈ waiting.map (·.refresh edited left)) :
    ∀ record ∈ task.agent, holds record := by
  obtain ⟨scheduled, hscheduled, hrefresh⟩ := List.mem_map.mp htask
  cases scheduled with
  | handler writer => cases hrefresh
  | diff earlier =>
      cases hrefresh
      unfold DiffTask.refresh
      split
      · intro record hrecord
        rcases Option.or_eq_some_iff.mp hrecord with hfound | ⟨-, hfound⟩
        · exact hleft earlier.key record hfound
        · exact hedited earlier.key record hfound
      · exact h earlier hscheduled

/-- The registry and the diffs that wait. -/
structure Standing (holds : AgentRecord → Prop) (d : EventLoop) : Prop where
  registry : AllHold holds d.registry
  scheduled : ∀ task, .diff task ∈ d.scheduled → ∀ record ∈ task.agent, holds record

theorem Standing.observe (h : Standing holds d) (hhost : KeptBySearch holds host)
    (hevent : ∀ event, HookEvent.fromDict payload = .ok event → KeptByEvent repr holds event) :
    Standing holds (d.observe repr host payload now) := by
  obtain ⟨hleft, hcall⟩ := allHold_onEvent h.registry hhost hevent now
  have hwaiting := holds_refresh (allHold_editedBy h.registry hevent now) hleft h.scheduled
  unfold EventLoop.observe
  dsimp only
  cases hrun : (onEvent repr host payload now).run d.registry with
  | error exception left =>
      rw [hrun] at hleft hwaiting
      exact ⟨hleft, hwaiting⟩
  | ok call left =>
      rw [hrun] at hleft hwaiting
      cases call with
      | none => exact ⟨hleft, hwaiting⟩
      | some call =>
          dsimp only
          cases call.sessionId.hash with
          | error exception => exact ⟨hleft, hwaiting⟩
          | ok key =>
              refine ⟨hleft, fun task htask => ?_⟩
              rcases List.mem_append.mp htask with hold | hnew
              · exact hwaiting task hold
              · cases List.mem_singleton.mp hnew
                exact hcall call left hrun

theorem Standing.reap (h : Standing holds d) (hhost : KeptBySearch holds host) :
    Standing holds (d.reap host) := by
  have hedited : AllHold holds
      (after ((SessionRegistry.resolvePendingIdentities host).run d.registry)) :=
    h.registry.of_resolves hhost
      (@SessionRegistry.resolveAll_related host d.registry d.registry.agents.keys)
  unfold EventLoop.reap
  dsimp only
  cases hrun : (SessionRegistry.sweep host).run d.registry with
  | error exception left =>
      have hleft := h.registry.of_resolves hhost (SessionRegistry.related_of_sweep_raised hrun)
      exact ⟨hleft, holds_refresh hedited hleft h.scheduled⟩
  | ok dead left =>
      obtain ⟨resolvedRegistry, hrelated, rfl⟩ := SessionRegistry.related_of_sweep hrun
      have hleft := (h.registry.of_resolves hhost hrelated).discardAll dead
      exact ⟨hleft, holds_refresh hedited hleft h.scheduled⟩

theorem Standing.plan (h : Standing holds d) (hkeeps : Keeps repr holds d action)
    (hplan : d.plan repr floatText action = some (planned, written)) :
    Standing holds planned := by
  rcases kind_of_plan hplan with ⟨host, payload, now, rfl, rfl⟩ | ⟨host, rfl, rfl⟩ | hahead
  · exact h.observe hkeeps.1 hkeeps.2
  · exact h.reap hkeeps
  · refine ⟨?_, fun task htask => h.scheduled task (hahead.scheduled task htask)⟩
    rw [hahead.registry]
    exact h.registry

/-- A new broadcast tells of records that were there. -/
theorem Standing.tells (h : Standing holds d) {owner : Owner} {body : Json} {stamp : Stamp}
    {order : List Writer} (takes : Takes floatText d action owner body stamp order source) :
    Tells floatText holds body := by
  cases takes with
  | @diff task rest order ts oldest =>
      refine .diff _ _ _ _ (h.scheduled task ?_)
      rw [oldest]
      exact List.mem_cons_self
  | @reaper index sid rest order ts announced =>
      exact .diff _ _ _ _ fun record hrecord => by cases hrecord
  | @ticker order ts => exact .snapshot d.registry ts h.registry

end Pipeline
end SiliconOffice
