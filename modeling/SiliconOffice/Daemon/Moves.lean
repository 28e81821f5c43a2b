import SiliconOffice.Daemon.Broadcaster

/-!
# What one action can do to the event loop

`Move` lists the outcomes of an action once: every invariant of the event loop is proved
by cases on it, and never unfolds `plan`.  Beginning a broadcast looks the same whoever
awaits it, so `Takes` says where its message comes from and `began` what happens then.
-/

namespace SiliconOffice
namespace Daemon

open Library Python Common

/-- What a scheduled task is about, whatever the live record holds by now. -/
def Scheduled.tag : Scheduled → (Nat × Change) ⊕ Writer
  | diff task => .inl (task.change, ⟨task.key, task.op⟩)
  | handler writer => .inr writer

@[simp] theorem Scheduled.tag_refresh (edited left : SessionRegistry) (scheduled : Scheduled) :
    (scheduled.refresh edited left).tag = scheduled.tag := by
  cases scheduled with
  | handler writer => rfl
  | diff task =>
      unfold refresh DiffTask.refresh
      dsimp only
      split <;> rfl

theorem map_tag_refresh (edited left : SessionRegistry) (scheduled : List Scheduled) :
    (scheduled.map (·.refresh edited left)).map Scheduled.tag = scheduled.map Scheduled.tag := by
  rw [List.map_map]
  exact List.map_congr_left fun task _ => task.tag_refresh edited left

/-! ## Live records -/

/-- Nobody is dropped from the registry before a `remove`. -/
theorem editedBy_tracked {repr : Json → Except PyErr String} {payload : Json} {now : ℚ}
    {registry : SessionRegistry} {key : DictKey} (h : registry.get? key ≠ none) :
    (editedBy repr payload now registry).get? key ≠ none := by
  unfold editedBy
  split
  · exact h
  · split
    · exact h
    · split
      · exact h
      · exact get?_store_ne_none _ h

theorem resolved_tracked {host : Host} {registry : SessionRegistry} {key : DictKey}
    (h : registry.get? key ≠ none) :
    (after ((SessionRegistry.resolvePendingIdentities host).run registry)).get? key ≠ none := by
  have hrelated := @SessionRegistry.resolveAll_related host registry registry.agents.keys
  exact mt (hrelated.none_iff key).mp h

/-- The registry and the scheduled diffs after an action that edits records: the diffs see
the edits, and no session is dropped but those that the action removes. -/
structure Renews (d : EventLoop) (registry : SessionRegistry) (waiting : List Scheduled)
    (removes : DictKey → Prop) : Prop where
  kept : ∀ key, d.registry.get? key ≠ none → registry.get? key = none → removes key
  refreshed : ∃ edited : SessionRegistry,
    (∀ key, d.registry.get? key ≠ none → edited.get? key ≠ none) ∧
      waiting = d.scheduled.map (·.refresh edited registry)

/-- A new diff holds the record that the registry has, or none when it has been removed. -/
structure DiffTask.Fresh (registry : SessionRegistry) (task : DiffTask) : Prop where
  op : task.op = .remove ↔ task.agent = none
  attached : task.attached = task.agent.isSome
  agent : registry.get? task.key = task.agent

namespace EventLoop

/-- The state in which a broadcast is suspended in its first drain. -/
def began (d : EventLoop) (owner : Owner) (message : Message) (first : Writer)
    (rest : List Writer) : EventLoop :=
  { d with
    inflight := d.inflight ++ [⟨owner, message, first, !d.broken first, rest, []⟩]
    begun := d.begun ++ [(owner, first :: rest)] }

variable (floatText : PyFloat → String)

/-- Where the message of a new broadcast comes from: the oldest scheduled diff, the next
session that the reaper announces, or the registry as it is. -/
inductive Takes (d : EventLoop) : Action → Owner → Json → Stamp → List Writer → EventLoop → Prop
  | diff {task : DiffTask} {rest : List Scheduled} {order : List Writer} {ts : ℚ}
      (oldest : d.scheduled = .diff task :: rest) :
      Takes d (.start order ts) .diff (makeDiffMessage task.key.toJson task.op task.agent ts)
        (.change task.change) order { d with scheduled := rest }
  | reaper {index : Nat} {sid : DictKey} {rest : List (Nat × DictKey)} {order : List Writer}
      {ts : ℚ} (next : d.announcing = (index, sid) :: rest) :
      Takes d (.announce order ts) .reaper (makeDiffMessage sid.toJson .remove none ts)
        (.change index) order { d with announcing := rest }
  | ticker {order : List Writer} {ts : ℚ} :
      Takes d (.tick order ts) .ticker (makeSnapshotMessage floatText d.registry.agents ts)
        (.snapshot d.changes.length) order d

/-- The outcomes of an action, up to the write it ends with. -/
inductive Move (d : EventLoop) : Action → EventLoop → Option (Writer × Message) → Prop
  | broke {writer : Writer} :
      Move d (.breaks writer) { d with broken := Function.update d.broken writer true } none
  | left {writer : Writer} (registered : writer ∈ d.clients) :
      Move d (.leaves writer)
        { d with
          clients := d.clients.erase writer
          broken := Function.update d.broken writer true } none
  | accepted :
      Move d .accept
        { d with
          scheduled := d.scheduled ++ [.handler d.nextWriter]
          nextWriter := d.nextWriter + 1 } none
  | touched {action : Action} {registry : SessionRegistry} {waiting : List Scheduled}
      (sameTags : waiting.map Scheduled.tag = d.scheduled.map Scheduled.tag)
      (renews : Renews d registry waiting fun _ => False) :
      Move d action { d with registry := registry, scheduled := waiting } none
  | observed {host : Host} {payload : Json} {now : ℚ} {registry : SessionRegistry}
      {waiting : List Scheduled} {task : DiffTask}
      (sameTags : waiting.map Scheduled.tag = d.scheduled.map Scheduled.tag)
      (newest : task.change = d.changes.length)
      (renews : Renews d registry waiting fun key => task.op = .remove ∧ (key == task.key) = true)
      (fresh : task.Fresh registry) :
      Move d (.event host payload now)
        { d with
          registry := registry
          scheduled := waiting ++ [.diff task]
          changes := d.changes ++ [⟨task.key, task.op⟩] } none
  | swept {host : Host} {registry : SessionRegistry} {waiting : List Scheduled}
      {dead : List DictKey}
      (sameTags : waiting.map Scheduled.tag = d.scheduled.map Scheduled.tag)
      (asleep : d.announcing = [])
      (renews : Renews d registry waiting fun key => dead.any (key == ·) = true) :
      Move d (.sweep host)
        { d with
          registry := registry
          scheduled := waiting
          announcing := dead.zipIdx.map fun item => (d.changes.length + item.2, item.1)
          changes := d.changes ++ dead.map (⟨·, .remove⟩) } none
  | greeted {order : List Writer} {ts : ℚ} {writer : Writer} {rest : List Scheduled}
      (oldest : d.scheduled = .handler writer :: rest) :
      Move d (.start order ts) (greet floatText writer ts { d with scheduled := rest }).1
        (greet floatText writer ts { d with scheduled := rest }).2
  | skipped {action : Action} {owner : Owner} {body : Json} {stamp : Stamp} {source : EventLoop}
      (takes : Takes floatText d action owner body stamp [] source)
      (nobody : d.clients = []) : Move d action source none
  | began {action : Action} {owner : Owner} {body : Json} {stamp : Stamp} {first : Writer}
      {rest : List Writer} {source : EventLoop}
      (takes : Takes floatText d action owner body stamp (first :: rest) source)
      (order : (first :: rest).Perm d.clients) :
      Move d action (source.began owner ⟨body, stamp, some d.begun.length⟩ first rest)
        (some (first, ⟨body, stamp, some d.begun.length⟩))
  | advanced {drainRaises : Bool} {earlier later : List Broadcast} {broadcast : Broadcast}
      {next : Writer} {rest : List Writer}
      (suspended : d.inflight = earlier ++ broadcast :: later)
      (remaining : broadcast.remaining = next :: rest) :
      Move d (.resume earlier.length drainRaises)
        { d with
          inflight := earlier ++
            { broadcast with
              current := next
              accepted := !d.broken next
              remaining := rest
              dead := d.deadAfter broadcast drainRaises } :: later }
        (some (next, broadcast.message))
  | finished {drainRaises : Bool} {earlier later : List Broadcast} {broadcast : Broadcast}
      (suspended : d.inflight = earlier ++ broadcast :: later)
      (remaining : broadcast.remaining = []) :
      Move d (.resume earlier.length drainRaises)
        { d with
          inflight := earlier ++ later
          clients := d.clients.filter fun writer =>
            decide (writer ∉ d.deadAfter broadcast drainRaises) } none

variable {floatText} {repr : Json → Except PyErr String} {d after : EventLoop} {action : Action}

/-- Beginning a broadcast, with or without clients. -/
theorem move_of_broadcast {owner : Owner} {body : Json} {stamp : Stamp} {order : List Writer}
    {source planned : EventLoop} {written : Option (Writer × Message)}
    (takes : Takes floatText d action owner body stamp order source)
    (h : broadcast owner body stamp order source = some (planned, written)) :
    Move floatText d action planned written := by
  have hclients : source.clients = d.clients := by cases takes <;> rfl
  have hbegun : source.begun = d.begun := by cases takes <;> rfl
  -- the order handed in is a permutation of the clients or the action is not enabled
  unfold broadcast at h
  split at h
  · rename_i hperm
    rw [List.isPerm_iff, hclients] at hperm
    cases order with
    | nil =>
        cases h
        exact .skipped takes hperm.nil_eq.symm
    | cons first rest =>
        cases h
        rw [hbegun]
        exact hbegun ▸ .began takes hperm
  · cases h

theorem move_of_continueBroadcast {index : Nat} {drainRaises : Bool} {planned : EventLoop}
    {written : Option (Writer × Message)}
    (h : d.continueBroadcast index drainRaises = some (planned, written)) :
    Move floatText d (.resume index drainRaises) planned written := by
  unfold continueBroadcast at h
  cases hdrop : d.inflight.drop index with
  | nil =>
      rw [hdrop] at h
      cases h
  | cons broadcast later =>
      rw [hdrop] at h
      have hsuspended : d.inflight = d.inflight.take index ++ broadcast :: later := by
        rw [← hdrop, List.take_append_drop]
      have hindex : (d.inflight.take index).length = index := by
        have hlength := congrArg List.length hdrop
        rw [List.length_drop, List.length_cons] at hlength
        rw [List.length_take]
        omega
      generalize d.inflight.take index = earlier at h hsuspended hindex
      subst hindex
      dsimp only at h
      split at h
      · rename_i next rest hremaining
        cases h
        exact .advanced hsuspended hremaining
      · rename_i hremaining
        cases h
        exact .finished hsuspended hremaining

theorem move_of_observe (host : Host) (payload : Json) (now : ℚ) :
    Move floatText d (.event host payload now) (d.observe repr host payload now) none := by
  have hleaves := onEvent_leaves repr host payload now d.registry
  have hedited : ∀ key, d.registry.get? key ≠ none →
      (editedBy repr payload now d.registry).get? key ≠ none := fun _ => editedBy_tracked
  unfold observe
  dsimp only
  cases hrun : (onEvent repr host payload now).run d.registry with
  | error exception left =>
      rw [hrun] at hleaves
      cases hleaves with
      | raised kept =>
          exact .touched (map_tag_refresh _ _ _)
            ⟨fun key hbefore hafter => kept key hbefore hafter, _, hedited, rfl⟩
  | ok call left =>
      rw [hrun] at hleaves
      cases hleaves with
      | silent kept =>
          exact .touched (map_tag_refresh _ _ _)
            ⟨fun key hbefore hafter => kept key hbefore hafter, _, hedited, rfl⟩
      | @upserted sessionId key record hashed =>
          dsimp only [after_ok]
          rw [hashed]
          refine .observed (map_tag_refresh _ _ _) rfl ⟨fun other hbefore hafter => ?_, _, hedited,
            rfl⟩ ⟨by simp, rfl, ?_⟩
          · exact absurd hafter (get?_store_ne_none record hbefore)
          · rw [SessionRegistry.get?_store, if_pos (BEq.refl _)]
      | @removed sessionId key hashed =>
          dsimp only [after_ok]
          rw [hashed]
          refine .observed (map_tag_refresh _ _ _) rfl ⟨fun other hbefore hafter => ?_, _, hedited,
            rfl⟩ ⟨by simp, rfl, ?_⟩
          · refine ⟨rfl, ?_⟩
            rw [SessionRegistry.get?_discard] at hafter
            by_contra hother
            rw [if_neg hother] at hafter
            exact hbefore hafter
          · rw [SessionRegistry.get?_discard, if_pos (BEq.refl _)]

theorem move_of_reap (host : Host) (hasleep : d.announcing = []) :
    Move floatText d (.sweep host) (d.reap host) none := by
  have hedited : ∀ key, d.registry.get? key ≠ none →
      (after ((SessionRegistry.resolvePendingIdentities host).run d.registry)).get? key ≠ none :=
    fun _ => resolved_tracked
  unfold reap
  dsimp only
  cases hrun : (SessionRegistry.sweep host).run d.registry with
  | ok dead left =>
      refine .swept (map_tag_refresh _ _ _) hasleep ⟨fun key hbefore hafter => ?_, _, hedited, rfl⟩
      exact ((SessionRegistry.sweep_none_iff hrun key).mp hafter).resolve_left hbefore
  | error exception left =>
      have hrelated := SessionRegistry.related_of_sweep_raised hrun
      refine .touched (map_tag_refresh _ _ _) ⟨fun key hbefore hafter => ?_, _, hedited, rfl⟩
      exact hbefore ((hrelated.none_iff key).mp hafter)

theorem move_of_plan {planned : EventLoop} {written : Option (Writer × Message)}
    (h : d.plan repr floatText action = some (planned, written)) :
    Move floatText d action planned written := by
  cases action with
  | breaks writer =>
      cases h
      exact .broke
  | announce order ts =>
      rw [plan] at h
      split at h
      · rename_i hannouncing
        exact move_of_broadcast (.reaper hannouncing) h
      · cases h
  | accept =>
      rw [plan] at h
      split at h
      · cases h
      · cases h
        exact .accepted
  | event host payload now =>
      rw [plan] at h
      split at h
      · cases h
      · cases h
        exact move_of_observe host payload now
  | start order ts =>
      rw [plan] at h
      split at h
      · cases h
      · split at h
        · cases h
        · rename_i hscheduled
          exact move_of_broadcast (.diff hscheduled) h
        · rename_i hscheduled
          cases h
          exact .greeted hscheduled
  | sweep host =>
      rw [plan] at h
      split at h
      · cases h
      · rename_i hruns
        split at h
        · cases h
        · rename_i hawaits
          cases h
          refine move_of_reap host ?_
          rw [reaperRuns, Bool.eq_false_of_not_eq_true hawaits] at hruns
          simpa using hruns
  | tick order ts =>
      rw [plan] at h
      split at h
      · cases h
      · split at h
        · cases h
        · exact move_of_broadcast .ticker h
  | resume index drainRaises =>
      rw [plan] at h
      split at h
      · cases h
      · exact move_of_continueBroadcast h
  | leaves writer =>
      rw [plan] at h
      split at h
      · cases h
      · split at h
        · rename_i hregistered
          cases h
          exact .left hregistered
        · cases h

/-- **An action is a move and the write it ends with.** -/
theorem move_of_step (h : d.step repr floatText action = some after) :
    ∃ planned written, d.plan repr floatText action = some (planned, written) ∧
      Move floatText d action planned written ∧ after = deliver (planned, written) := by
  unfold step at h
  cases hplan : d.plan repr floatText action with
  | none =>
      rw [hplan] at h
      cases h
  | some outcome =>
      obtain ⟨planned, written⟩ := outcome
      rw [hplan] at h
      cases h
      exact ⟨planned, written, rfl, move_of_plan hplan, rfl⟩

end EventLoop

end Daemon
end SiliconOffice
