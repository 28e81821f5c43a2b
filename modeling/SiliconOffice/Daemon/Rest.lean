import SiliconOffice.Daemon.Stalling
import SiliconOffice.Daemon.Updates

/-!
# The daemon comes to rest

Once nothing new comes in, the tasks have only so much to do: `workload` is computed from what
is scheduled, left to announce and under way, and every step of a task takes at least one from
it (`workload_step`).  Where no task can go on nothing is pending, and every client that is still
registered has been written all changes since its greeting (`comes_to_rest`).
-/

namespace SiliconOffice
namespace Daemon

open Library Python Common

/-- What happens when nothing new comes in: tasks go on, and clients may be lost. -/
def Action.settles : Action → Bool
  | breaks _ | leaves _ => true
  | action => action.ofTask

/-- A connection whose handler has not started. -/
def Scheduled.isHandler : Scheduled → Bool
  | handler _ => true
  | diff _ => false

namespace EventLoop

/-- The clients that a broadcast can find, now or when all handlers have started. -/
def audience (d : EventLoop) : ℕ :=
  d.clients.length + d.scheduled.countP Scheduled.isHandler

/-- The broadcasts that are under way have this many drains before them. -/
def drains : List Broadcast → ℕ
  | [] => 0
  | broadcast :: later => broadcast.remaining.length + 1 + drains later

/-- The most steps that tasks still take: one for each task that is to start, and one for each
drain. -/
def workload (d : EventLoop) : ℕ :=
  (d.scheduled.length + d.announcing.length) * (d.audience + 1) + drains d.inflight

variable {floatText : PyFloat → String} {repr : Json → Except PyErr String}
  {d next planned : EventLoop} {action : Action} {written : Option (Writer × Message)}

theorem drains_cons (broadcast : Broadcast) (later : List Broadcast) :
    drains (broadcast :: later) = broadcast.remaining.length + 1 + drains later := rfl

theorem drains_append (earlier later : List Broadcast) :
    drains (earlier ++ later) = drains earlier + drains later := by
  induction earlier with
  | nil => exact (Nat.zero_add _).symm
  | cons broadcast rest ih =>
      rw [List.cons_append, drains_cons, drains_cons, ih]
      exact (Nat.add_assoc ..).symm

theorem workload_deliver (planned : EventLoop) (written : Option (Writer × Message)) :
    (deliver (planned, written)).workload = planned.workload := by
  have hsame := sameButSent_deliver planned written
  unfold workload audience
  rw [hsame.scheduled, hsame.announcing, hsame.clients, hsame.inflight]

/-- A new broadcast has a drain for each client. -/
theorem workload_broadcast {owner : Owner} {body : Json} {stamp : Stamp} {order : List Writer}
    (h : broadcast owner body stamp order d = some (planned, written)) :
    planned.workload ≤ d.workload + d.clients.length := by
  unfold broadcast at h
  split at h
  · rename_i hperm
    have hlength := (List.isPerm_iff.mp hperm).length_eq
    cases order with
    | nil =>
        cases h
        exact Nat.le_add_right _ _
    | cons first rest =>
        cases h
        rw [List.length_cons] at hlength
        have hnone : drains [] = 0 := rfl
        unfold workload audience
        dsimp only
        rw [drains_append, drains_cons, hnone, ← hlength]
        dsimp only
        omega
  · cases h

/-- A task that has begun to run leaves the others less to do. -/
theorem workload_take {source : EventLoop} (haudience : source.audience ≤ d.audience)
    (hfewer : source.scheduled.length + source.announcing.length + 1 ≤
      d.scheduled.length + d.announcing.length)
    (hdrains : drains source.inflight = drains d.inflight) :
    source.workload + (d.audience + 1) ≤ d.workload := by
  unfold workload
  have hmost : (source.scheduled.length + source.announcing.length) * (source.audience + 1) ≤
      (source.scheduled.length + source.announcing.length) * (d.audience + 1) :=
    Nat.mul_le_mul_left _ (Nat.succ_le_succ haudience)
  have hone : (source.scheduled.length + source.announcing.length + 1) * (d.audience + 1) ≤
      (d.scheduled.length + d.announcing.length) * (d.audience + 1) :=
    Nat.mul_le_mul_right _ hfewer
  rw [Nat.succ_mul] at hone
  omega

theorem workload_le_of_clients {clients : List Writer} (h : clients.length ≤ d.clients.length) :
    ({ d with clients := clients } : EventLoop).workload ≤ d.workload := by
  unfold workload audience
  dsimp only
  exact Nat.add_le_add_right (Nat.mul_le_mul_left _ (by omega)) _

theorem workload_continueBroadcast {index : ℕ} {drainRaises : Bool}
    (h : d.continueBroadcast index drainRaises = some (planned, written)) :
    planned.workload + 1 ≤ d.workload := by
  unfold continueBroadcast at h
  split at h
  · cases h
  · rename_i broadcast later hdrop
    have hinflight : d.inflight = d.inflight.take index ++ broadcast :: later := by
      rw [← hdrop, List.take_append_drop]
    have hdrains : drains d.inflight =
        drains (d.inflight.take index) + (broadcast.remaining.length + 1 + drains later) := by
      rw [← drains_cons, ← drains_append, ← hinflight]
    dsimp only at h
    split at h
    · rename_i next rest hremaining
      cases h
      rw [hremaining, List.length_cons] at hdrains
      unfold workload audience
      dsimp only
      rw [drains_append, drains_cons, hdrains]
      dsimp only
      omega
    · rename_i hremaining
      cases h
      rw [hremaining, List.length_nil] at hdrains
      have hclients := @workload_le_of_clients { d with
        inflight := d.inflight.take index ++ later } _
        (List.length_filter_le (fun writer =>
          decide (writer ∉ d.deadAfter broadcast drainRaises)) d.clients)
      refine (Nat.succ_le_succ hclients).trans ?_
      unfold workload audience
      dsimp only
      rw [drains_append, hdrains]
      omega

/-- A task that begins with a broadcast has used up more than the drains of the broadcast. -/
theorem workload_took {source : EventLoop} {owner : Owner} {body : Json} {stamp : Stamp}
    {order : List Writer} (hclients : source.clients = d.clients)
    (htake : source.workload + (d.audience + 1) ≤ d.workload)
    (h : broadcast owner body stamp order source = some (planned, written)) :
    planned.workload + 1 ≤ d.workload := by
  have hbroadcast := workload_broadcast h
  have haudience : d.clients.length ≤ d.audience := Nat.le_add_right _ _
  rw [hclients] at hbroadcast
  omega

/-- The client that is greeted was counted as a handler before. -/
theorem workload_greet {writer : Writer} {rest : List Scheduled} (ts : ℚ)
    (hscheduled : d.scheduled = .handler writer :: rest) :
    (greet floatText writer ts { d with scheduled := rest }).1.workload + 1 ≤ d.workload := by
  have hone : d.scheduled.countP Scheduled.isHandler =
      rest.countP Scheduled.isHandler + 1 := by
    rw [hscheduled]
    exact List.countP_cons_of_pos rfl
  have haudience : (greet floatText writer ts { d with scheduled := rest }).1.audience =
      d.audience := by
    unfold audience greet
    dsimp only
    rw [hone, List.length_append]
    exact Nat.add_right_comm ..
  have htake := workload_take haudience.le (by
    rw [hscheduled, List.length_cons]
    exact (Nat.add_right_comm ..).le) rfl
  omega

theorem workload_start {order : List Writer} {ts : ℚ}
    (h : d.plan repr floatText (.start order ts) = some (planned, written)) :
    planned.workload + 1 ≤ d.workload := by
  rw [plan] at h
  split at h
  · cases h
  · split at h
    · cases h
    · rename_i task rest hscheduled
      refine @workload_took d planned written { d with scheduled := rest } _ _ _ _ rfl ?_ h
      refine workload_take ?_ ?_ rfl
      · unfold audience
        rw [hscheduled]
        exact Nat.le_refl _
      · rw [hscheduled, List.length_cons]
        exact (Nat.add_right_comm ..).le
    · rename_i writer rest hscheduled
      have hgreet := @workload_greet floatText d writer rest ts hscheduled
      rw [(Option.some.inj h : _ = (planned, written))] at hgreet
      exact hgreet

theorem workload_announce {order : List Writer} {ts : ℚ}
    (h : d.plan repr floatText (.announce order ts) = some (planned, written)) :
    planned.workload + 1 ≤ d.workload := by
  rw [plan] at h
  split at h
  · rename_i index sid rest hruns hannouncing
    refine @workload_took d planned written { d with announcing := rest } _ _ _ _ rfl ?_ h
    refine workload_take (Nat.le_refl _) ?_ rfl
    rw [hannouncing, List.length_cons]
    exact (Nat.add_assoc ..).le
  · cases h

/-- **Each step of a task uses up some of the workload**, and nothing else adds to it while
nothing new comes in. -/
theorem workload_step (hsettles : action.settles = true)
    (hstep : d.step repr floatText action = some next) :
    next.workload + action.ofTask.toNat ≤ d.workload := by
  obtain ⟨⟨planned, written⟩, hplan, rfl⟩ := Option.map_eq_some_iff.mp hstep
  rw [workload_deliver]
  cases action with
  | breaks writer =>
      cases hplan
      exact Nat.le_refl _
  | leaves writer =>
      rw [plan] at hplan
      split at hplan
      · cases hplan
      · split at hplan
        · cases hplan
          exact workload_le_of_clients (List.erase_sublist ..).length_le
        · cases hplan
  | start order ts => exact workload_start hplan
  | announce order ts => exact workload_announce hplan
  | resume index drainRaises =>
      rw [plan] at hplan
      split at hplan
      · cases hplan
      · exact workload_continueBroadcast hplan
  | accept => cases hsettles
  | event host payload now => cases hsettles
  | sweep host => cases hsettles
  | tick order ts => cases hsettles

/-! ## Where no task can go on -/

/-- Somebody can go on unless nothing is pending. -/
theorem idle_of_stuck
    (hstuck : ∀ action, action.ofTask = true → d.step repr floatText action = none) :
    d.scheduled = [] ∧ d.Idle := by
  have hinflight : d.inflight = [] := by
    have hquiescent : Quiescent repr floatText (fun _ => False) d :=
      fun action htask _ => hstuck action htask
    exact List.eq_nil_iff_forall_not_mem.mpr fun broadcast hmem =>
      stuck_of_quiescent hquiescent broadcast hmem
  have hawaits : d.awaits .reaper = false := by
    rw [awaits, hinflight]
    rfl
  have hannouncing : d.announcing = [] := by
    cases hannouncing : d.announcing with
    | nil => rfl
    | cons entry rest =>
        have hruns : d.reaperRuns = true := by
          rw [reaperRuns, hannouncing, hawaits]
          rfl
        have hannounce := step_eq_none_iff.mp (hstuck (.announce d.clients 0) rfl)
        simp only [plan, hruns, hannouncing] at hannounce
        exact absurd hannounce
          (@broadcast_clients_ne_none { d with announcing := rest } _ _ _)
  have hruns : d.reaperRuns = false := by
    rw [reaperRuns, hannouncing]
    rfl
  have hscheduled : d.scheduled = [] := by
    cases hscheduled : d.scheduled with
    | nil => rfl
    | cons first rest =>
        have hstart := step_eq_none_iff.mp (hstuck (.start d.clients 0) rfl)
        simp only [plan, hruns, hscheduled, Bool.false_eq_true, if_false] at hstart
        cases first with
        | diff task =>
            exact absurd hstart
              (@broadcast_clients_ne_none { d with scheduled := rest } _ _ _)
        | handler writer => cases hstart
  refine ⟨hscheduled, ?_, hannouncing, hinflight⟩
  rw [hscheduled]
  rfl

/-- **The daemon comes to rest.**  When nothing new comes in, the tasks take no more steps than
their workload, however they are interleaved, whichever drains raise and whichever clients are
lost meanwhile.  Where none of them can go on nothing is pending, everyone who has connected has
been greeted, and every client that is still registered has been written each change since its
greeting exactly once. -/
theorem comes_to_rest {registry : SessionRegistry} {actions later : List Action}
    {final : EventLoop}
    (hrun : Run (step repr floatText) (fun _ _ => True) (fresh registry) actions d)
    (hlater : Run (step repr floatText) (fun _ action => action.settles = true) d later final) :
    later.countP Action.ofTask ≤ d.workload ∧
      ((∀ action, action.ofTask = true → final.step repr floatText action = none) →
        final.scheduled = [] ∧ final.Idle ∧
          (∀ writer < final.nextWriter, final.Greeted writer) ∧
          ∀ writer ∈ final.clients, final.Greeted writer ∧
            ∀ index, final.joined writer ≤ index → index < final.changes.length →
              final.copies writer index = 1) := by
  obtain ⟨-, hcount⟩ := hlater.countP_le (fun _ => True) workload Action.ofTask trivial
    fun _ _ _ _ hsettles hstep => ⟨trivial, workload_step hsettles hstep⟩
  refine ⟨by omega, fun hstuck => ?_⟩
  have hreliable := reliable_of_run (hrun.append (hlater.mono fun _ _ _ => trivial))
  obtain ⟨hscheduled, hidle⟩ := idle_of_stuck hstuck
  refine ⟨hscheduled, hidle, fun writer hwriter => ?_, fun writer hclient =>
    ⟨hreliable.allGreeted.clients writer hclient, fun index hjoined hindex => ?_⟩⟩
  · -- no handler is waiting any more
    refine hreliable.allGreeted.everyone writer fun hungreeted => ?_
    rw [Ungreeted, hscheduled] at hungreeted
    rcases hungreeted with hwaiting | hlater
    · exact absurd hwaiting List.not_mem_nil
    · exact absurd hwriter (Nat.not_lt.mpr hlater)
  · exact hreliable.delivery.copies_eq_one hidle hclient hjoined hindex

/-! ### A drain that raises -/

/-- Two clients connect and a session begins to work. -/
def beforeDiff : List Action :=
  [.accept, .start [] 1, .accept, .start [] 2, .event quietHost (promptOf "s1") 3]

/-- While the diff is broadcast the connection of client 0 breaks, and its drain raises. -/
def settlingDiff : List Action :=
  [.start [0, 1] 4, .breaks 0, .resume 0 true, .resume 0 false]

theorem run_settlingDiff :
    ∃ middle final, Run (step (fun _ => .ok "") fun _ => "") (fun _ _ => True) (fresh .fresh)
        beforeDiff middle ∧
      Run (step (fun _ => .ok "") fun _ => "") (fun _ action => action.settles = true) middle
        settlingDiff final ∧
      Quiescent (fun _ => .ok "") (fun _ => "") (fun _ => False) final ∧
      final.clients = [1] ∧ final.joined 1 = 0 ∧ final.changes.length = 1 ∧
      final.nextWriter = 2 := by
  obtain ⟨middle, final, hrun, hlater, hscheduled, hruns, hinflight, hrest⟩ :
      ∃ middle final, runActions (step (fun _ => .ok "") fun _ => "") (fresh .fresh) beforeDiff =
          some middle ∧
        runActions (step (fun _ => .ok "") fun _ => "") middle settlingDiff = some final ∧
        final.scheduled = [] ∧ final.reaperRuns = false ∧ final.inflight = [] ∧
        final.clients = [1] ∧ final.joined 1 = 0 ∧ final.changes.length = 1 ∧
        final.nextWriter = 2 :=
    ⟨_, _, rfl, rfl, rfl, rfl, rfl, rfl, rfl, rfl, rfl⟩
  refine ⟨middle, final, run_of_runActions hrun fun _ _ _ => trivial,
    run_of_runActions hlater ?_, quiescent_of_stuck hscheduled hruns ?_, hrest⟩
  · intro action haction state
    simp only [settlingDiff, List.mem_cons, List.not_mem_nil, or_false] at haction
    rcases haction with rfl | rfl | rfl | rfl <;> rfl
  · rw [hinflight]
    exact fun broadcast hmem => absurd hmem List.not_mem_nil

theorem comes_to_rest_raising :
    ∃ d final : EventLoop, settlingDiff.countP Action.ofTask ≤ d.workload ∧ final.Idle ∧
      final.clients = [1] ∧ final.Greeted 0 ∧ final.Greeted 1 ∧ final.copies 1 0 = 1 := by
  obtain ⟨d, final, hrun, hlater, hquiescent, hclients, hjoined, hchanges, hnext⟩ :=
    run_settlingDiff
  obtain ⟨hcount, hrest⟩ := comes_to_rest hrun hlater
  obtain ⟨-, hidle, heveryone, hserved⟩ := hrest fun action htask => by
    refine hquiescent action htask ?_
    cases action <;> first | exact trivial | exact fun _ _ => id | cases htask
  obtain ⟨hgreeted, hcopies⟩ := hserved 1 (by rw [hclients]; exact List.mem_singleton_self _)
  refine ⟨d, final, hcount, hidle, hclients, heveryone 0 ?_, hgreeted, hcopies 0 hjoined.le ?_⟩
  · rw [hnext]
    exact Nat.zero_lt_two
  · rw [hchanges]
    exact Nat.zero_lt_one

end EventLoop

end Daemon
end SiliconOffice
