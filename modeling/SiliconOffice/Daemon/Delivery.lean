import Mathlib.Data.List.Nodup
import SiliconOffice.Daemon.Clients
import SiliconOffice.Library.Runs

/-!
# No gap on connect, no loss through others

A registry change made after a client's greeting is, at any moment, waiting, in flight or
over, and only one of these (`Delivery.once`).  `Accounted` says how many copies of its
diff the client has been written in each case: none while it waits, one once its turn in
the broadcast has come, unless the client's own socket failed in that very broadcast, and
then the broadcast drops the client when it ends.  So whoever is still registered when
nothing is pending has exactly one copy (`exactly_once`).

`Labelled` ties the stamps to what the messages say.
-/

namespace SiliconOffice
namespace Daemon

open Library Python Common

/-- The registry change that a stamp is about. -/
def Stamp.index? : Stamp → Option Nat
  | change index => some index
  | snapshot _ => none

theorem Stamp.index?_eq_some_iff {stamp : Stamp} {index : Nat} :
    stamp.index? = some index ↔ stamp = .change index := by
  cases stamp <;> simp [index?]

namespace EventLoop

/-- How many copies of the diff of a change a client has been written. -/
def copies (d : EventLoop) (writer : Writer) (index : Nat) : Nat :=
  (d.sent writer).countP fun message => decide (message.stamp = .change index)

/-- The changes whose broadcast is not over. -/
def pendingChanges (d : EventLoop) : List Nat :=
  d.waitingChanges ++ d.inflight.filterMap (·.message.stamp.index?)

/-- No broadcast task is pending: none scheduled, none suspended, none left to the reaper. -/
def Idle (d : EventLoop) : Prop :=
  scheduledChanges d.scheduled = [] ∧ d.announcing = [] ∧ d.inflight = []

/-- The broadcast will drop the client. -/
def Failing (broadcast : Broadcast) (writer : Writer) : Prop :=
  writer ∈ broadcast.dead ∨ writer = broadcast.current ∧ broadcast.accepted = false

/-- How many copies a client has, by how far the change has come. -/
structure Accounted (d : EventLoop) (writer : Writer) (index : Nat) : Prop where
  waiting : index ∈ d.waitingChanges → d.copies writer index = 0
  inflight : ∀ broadcast ∈ d.inflight, broadcast.message.stamp = .change index →
    writer ∈ broadcast.remaining ∧ d.copies writer index = 0 ∨
      writer ∉ broadcast.remaining ∧ (d.copies writer index = 1 ∨ Failing broadcast writer)
  ended : index ∉ d.pendingChanges → d.copies writer index = 1

/-- Every change made since its greeting is accounted for at every registered client. -/
structure Delivery (d : EventLoop) : Prop where
  coherent : Coherent d
  bounded : Bounded d
  once : d.pendingChanges.Nodup
  turns : ∀ broadcast ∈ d.inflight, broadcast.remaining.Nodup
  accounted : ∀ writer ∈ d.clients, ∀ index, d.joined writer ≤ index →
    index < d.changes.length → d.Accounted writer index

variable {floatText : PyFloat → String} {repr : Json → Except PyErr String}
  {d after source planned : EventLoop} {action : Action} {owner : Owner} {body : Json}
  {stamp : Stamp} {writer : Writer} {index : Nat} {written : Option (Writer × Message)}
  {earlier later : List Broadcast} {broadcast : Broadcast}

/-! ## What is pending -/

theorem mem_pendingChanges :
    index ∈ d.pendingChanges ↔ index ∈ d.waitingChanges ∨
      ∃ broadcast ∈ d.inflight, broadcast.message.stamp = .change index := by
  simp [pendingChanges, Stamp.index?_eq_some_iff]

/-- A change in flight does not wait any more. -/
theorem Delivery.not_waiting (h : Delivery d) (hmem : broadcast ∈ d.inflight)
    (hstamp : broadcast.message.stamp = .change index) : index ∉ d.waitingChanges := by
  intro hwaiting
  refine (List.nodup_append.mp h.once).2.2 index hwaiting index ?_ rfl
  exact List.mem_filterMap.mpr ⟨broadcast, hmem, Stamp.index?_eq_some_iff.mpr hstamp⟩

/-- A change is in flight only once. -/
theorem Delivery.only_broadcast (h : Delivery d)
    (hinflight : d.inflight = earlier ++ broadcast :: later)
    (hstamp : broadcast.message.stamp = .change index) {other : Broadcast}
    (hother : other ∈ earlier ++ later) : other.message.stamp ≠ .change index := by
  have hnodup := (List.nodup_append.mp h.once).2.1
  rw [hinflight, List.filterMap_append, List.filterMap_cons,
    Stamp.index?_eq_some_iff.mpr hstamp, List.nodup_middle, ← List.filterMap_append] at hnodup
  intro hsame
  exact (List.nodup_cons.mp hnodup).1
    (List.mem_filterMap.mpr ⟨other, hother, Stamp.index?_eq_some_iff.mpr hsame⟩)

/-- Beginning a broadcast moves its change from waiting to in flight. -/
theorem pendingChanges_began {order rest : List Writer} {first : Writer} {serial : Option Nat}
    (takes : Takes floatText d action owner body stamp order source) :
    (source.began owner ⟨body, stamp, serial⟩ first rest).pendingChanges.Perm
      d.pendingChanges := by
  have hframe := takes.frame
  unfold pendingChanges
  change (source.waitingChanges ++ List.filterMap _ (source.inflight ++ [_])).Perm _
  rw [hframe.inflight, List.filterMap_append, ← List.append_assoc]
  rcases takes.waiting with ⟨index, rfl, hperm⟩ | ⟨rfl, hsame⟩
  · refine (List.perm_append_singleton index _).trans ?_
    exact (hperm.append_right _).symm
  · rw [hsame]
    exact (List.append_nil _).symm ▸ .refl _

/-- A broadcast that goes on keeps its change in flight. -/
theorem pendingChanges_advanced {moved : Broadcast}
    (suspended : d.inflight = earlier ++ broadcast :: later)
    (hinflight : after.inflight = earlier ++ moved :: later)
    (hmessage : moved.message = broadcast.message)
    (hwaiting : after.waitingChanges = d.waitingChanges) :
    after.pendingChanges = d.pendingChanges := by
  rw [pendingChanges, hwaiting, hinflight, pendingChanges, suspended, List.filterMap_append,
    List.filterMap_append, List.filterMap_cons, hmessage, List.filterMap_cons]

/-- A broadcast that ends takes at most its own change with it. -/
theorem pendingChanges_finished (suspended : d.inflight = earlier ++ broadcast :: later)
    (hinflight : after.inflight = earlier ++ later)
    (hwaiting : after.waitingChanges = d.waitingChanges) :
    after.pendingChanges.Sublist d.pendingChanges := by
  rw [pendingChanges, hwaiting, hinflight, pendingChanges, suspended, List.filterMap_append,
    List.filterMap_append, List.filterMap_cons]
  refine List.Sublist.append_left (List.Sublist.append_left ?_ _) _
  split
  · exact List.Sublist.refl _
  · exact List.sublist_cons_self _ _

/-! ## Copies -/

theorem copies_deliver (target : Writer) (message : Message) :
    (deliver (planned, some (target, message))).copies writer index =
      planned.copies writer index +
        if planned.broken target = false ∧ writer = target ∧ message.stamp = .change index
        then 1 else 0 := by
  unfold copies
  rw [deliver, sent_write]
  by_cases htarget : planned.broken target = false ∧ writer = target
  · obtain ⟨hhealthy, rfl⟩ := htarget
    rw [if_pos ⟨hhealthy, rfl⟩, List.countP_append, List.countP_singleton]
    by_cases hstamp : message.stamp = .change index
    · rw [if_pos (decide_eq_true hstamp), if_pos ⟨hhealthy, rfl, hstamp⟩]
    · rw [if_neg (mt of_decide_eq_true hstamp), if_neg fun hall => hstamp hall.2.2]
  · rw [if_neg htarget, if_neg fun hall => htarget ⟨hall.1, hall.2.1⟩, Nat.add_zero]

/-- Nobody has a copy of a change that has not been made. -/
theorem Bounded.copies_eq_zero (h : Bounded d) (hindex : d.changes.length ≤ index) :
    d.copies writer index = 0 := by
  refine List.countP_eq_zero.mpr fun message hmem hstamp => ?_
  have hwithin := h.sent writer message hmem
  rw [of_decide_eq_true hstamp] at hwithin
  exact Nat.not_lt.mpr hindex hwithin

/-! ## Accounts that stay as they are -/

/-- A step that neither writes the change nor moves it along. -/
theorem Accounted.of_same (h : d.Accounted writer index)
    (hwaiting : index ∈ after.waitingChanges → index ∈ d.waitingChanges)
    (hinflight : ∀ broadcast ∈ after.inflight, broadcast.message.stamp = .change index →
      broadcast ∈ d.inflight)
    (hpending : index ∈ d.pendingChanges → index ∈ after.pendingChanges)
    (hcopies : after.copies writer index = d.copies writer index) :
    after.Accounted writer index where
  waiting hmem := hcopies.trans (h.waiting (hwaiting hmem))
  inflight broadcast hmem hstamp := by
    rw [hcopies]
    exact h.inflight broadcast (hinflight broadcast hmem hstamp) hstamp
  ended hmem := hcopies.trans (h.ended (mt hpending hmem))

/-! ## Steps that move no broadcast -/

/-- The changes that a move has made are waiting, and nothing else has moved. -/
structure Quiet (d planned : EventLoop) : Prop where
  inflight : planned.inflight = d.inflight
  waiting : planned.waitingChanges.Perm
    (List.range' d.changes.length (planned.changes.length - d.changes.length) ++
      d.waitingChanges)

theorem quiet_of_same (hinflight : planned.inflight = d.inflight)
    (hwaiting : planned.waitingChanges = d.waitingChanges)
    (hchanges : planned.changes = d.changes) : Quiet d planned where
  inflight := hinflight
  waiting := by
    rw [hwaiting, hchanges, Nat.sub_self]
    exact .refl _

theorem quiet_observed {registry : SessionRegistry} {waiting : List Scheduled} {task : DiffTask}
    (sameTags : waiting.map Scheduled.tag = d.scheduled.map Scheduled.tag)
    (newest : task.change = d.changes.length) :
    Quiet d
      { d with
        registry := registry
        scheduled := waiting ++ [.diff task]
        changes := d.changes ++ [⟨task.key, task.op⟩] } where
  inflight := rfl
  waiting := by
    have hlength : (d.changes ++ [(⟨task.key, task.op⟩ : Change)]).length - d.changes.length =
        1 := by simp
    unfold waitingChanges
    dsimp only
    rw [hlength, scheduledChanges_append, scheduledChanges_congr sameTags, List.append_assoc,
      ← newest]
    exact List.perm_middle

theorem quiet_swept {registry : SessionRegistry} {waiting : List Scheduled}
    {dead : List DictKey}
    (sameTags : waiting.map Scheduled.tag = d.scheduled.map Scheduled.tag)
    (asleep : d.announcing = []) :
    Quiet d
      { d with
        registry := registry
        scheduled := waiting
        announcing := dead.zipIdx.map fun item => (d.changes.length + item.2, item.1)
        changes := d.changes ++ dead.map (⟨·, .remove⟩) } where
  inflight := rfl
  waiting := by
    have hlength : (d.changes ++ dead.map fun sid => (⟨sid, .remove⟩ : Change)).length -
        d.changes.length = dead.length := by simp
    have hannounced : (dead.zipIdx.map fun item => (d.changes.length + item.2, item.1)).map
        Prod.fst = List.range' d.changes.length dead.length := by
      calc (dead.zipIdx.map fun item => (d.changes.length + item.2, item.1)).map Prod.fst
          = (dead.zipIdx.map Prod.snd).map (d.changes.length + ·) := by
            rw [List.map_map, List.map_map]
            rfl
        _ = List.range' d.changes.length dead.length := by
            rw [List.zipIdx_map_snd, List.map_add_range', Nat.add_zero]
    unfold waitingChanges
    dsimp only
    rw [hlength, hannounced, scheduledChanges_congr sameTags, asleep, List.map_nil,
      List.append_nil]
    exact List.perm_append_comm

theorem delivery_of_quiet (h : Delivery d) (hcoherent : Coherent after) (hbounded : Bounded after)
    (hquiet : Quiet d after) (hcopies : ∀ writer index, after.copies writer index =
      d.copies writer index)
    (hclients : ∀ writer ∈ after.clients, writer ∈ d.clients ∧ after.joined writer =
      d.joined writer ∨ after.changes.length ≤ after.joined writer) : Delivery after where
  coherent := hcoherent
  bounded := hbounded
  once := by
    unfold pendingChanges
    rw [hquiet.inflight, (hquiet.waiting.append_right _).nodup_iff, List.append_assoc]
    refine List.nodup_append.mpr ⟨List.nodup_range', h.once, ?_⟩
    rintro index hnew _ hold rfl
    -- what was pending before is about changes that had been made before
    have hle : d.changes.length ≤ index := (List.mem_range'_1.mp hnew).1
    rcases mem_pendingChanges.mp hold with hwaiting | ⟨broadcast, hmem, hstamp⟩
    · exact absurd (h.bounded.waiting index hwaiting) (Nat.not_lt.mpr hle)
    · have hwithin := h.bounded.inflight broadcast hmem
      rw [hstamp] at hwithin
      exact absurd hwithin (Nat.not_lt.mpr hle)
  turns := by
    rw [hquiet.inflight]
    exact h.turns
  accounted writer hclient index hjoined hindex := by
    rcases hclients writer hclient with ⟨hregistered, hsame⟩ | hlate
    · by_cases hlt : index < d.changes.length
      · refine (h.accounted writer hregistered index (hsame ▸ hjoined) hlt).of_same ?_ ?_ ?_
          (hcopies writer index)
        · intro hwaiting
          rcases List.mem_append.mp (hquiet.waiting.mem_iff.mp hwaiting) with hnew | hold
          · exact absurd (List.mem_range'_1.mp hnew).1 (Nat.not_le.mpr hlt)
          · exact hold
        · intro broadcast hmem _
          rw [hquiet.inflight] at hmem
          exact hmem
        · intro hpending
          rw [mem_pendingChanges, hquiet.inflight, hquiet.waiting.mem_iff]
          exact (mem_pendingChanges.mp hpending).imp_left (List.mem_append_right _)
      · have hle := Nat.not_lt.mp hlt
        have hzero : after.copies writer index = 0 :=
          (hcopies writer index).trans (h.bounded.copies_eq_zero hle)
        have hwaiting : index ∈ after.waitingChanges :=
          hquiet.waiting.mem_iff.mpr
            (List.mem_append_left _ (List.mem_range'_1.mpr ⟨hle, by omega⟩))
        refine ⟨fun _ => hzero, fun broadcast hmem hstamp => ?_, fun hover => ?_⟩
        · rw [hquiet.inflight] at hmem
          have hwithin := h.bounded.inflight broadcast hmem
          rw [hstamp] at hwithin
          exact absurd hwithin hlt
        · exact absurd (mem_pendingChanges.mpr (.inl hwaiting)) hover
    · exact absurd hindex (Nat.not_lt.mpr (Nat.le_trans hlate hjoined))

/-! ## Steps that move a broadcast -/

theorem delivery_skipped (h : Delivery d) (hcoherent : Coherent source)
    (hbounded : Bounded source) {order : List Writer}
    (takes : Takes floatText d action owner body stamp order source) (nobody : d.clients = []) :
    Delivery source where
  coherent := hcoherent
  bounded := hbounded
  once := by
    have hnodup := h.once
    unfold pendingChanges at hnodup ⊢
    rw [takes.frame.inflight]
    rcases takes.waiting with ⟨index, -, hperm⟩ | ⟨-, hsame⟩
    · rw [(hperm.append_right _).nodup_iff] at hnodup
      exact (List.nodup_cons.mp hnodup).2
    · rw [hsame]
      exact hnodup
  turns := by
    rw [takes.frame.inflight]
    exact h.turns
  accounted writer hclient := by
    rw [takes.frame.clients, nobody] at hclient
    exact absurd hclient List.not_mem_nil

/-- Beginning a broadcast: the first client gets its copy, the others have their turn to
come. -/
theorem accounted_began (h : Delivery d) {first : Writer} {rest : List Writer}
    (takes : Takes floatText d action owner body stamp (first :: rest) source)
    (order : (first :: rest).Perm d.clients) (hclient : writer ∈ d.clients)
    (haccount : d.Accounted writer index) :
    (deliver (source.began owner ⟨body, stamp, some d.begun.length⟩ first rest,
      some (first, ⟨body, stamp, some d.begun.length⟩))).Accounted writer index := by
  have hframe := takes.frame
  have hsame := sameButSent_deliver
    (source.began owner ⟨body, stamp, some d.begun.length⟩ first rest)
    (some (first, ⟨body, stamp, some d.begun.length⟩))
  have hinflight : (source.began owner ⟨body, stamp, some d.begun.length⟩ first rest).inflight =
      d.inflight ++
        [⟨owner, ⟨body, stamp, some d.begun.length⟩, first, !d.broken first, rest, []⟩] := by
    rw [began, hframe.inflight, hframe.broken]
  have hcopies : (deliver (source.began owner ⟨body, stamp, some d.begun.length⟩ first rest,
      some (first, ⟨body, stamp, some d.begun.length⟩))).copies writer index =
      d.copies writer index +
        if d.broken first = false ∧ writer = first ∧ stamp = .change index then 1 else 0 := by
    rw [copies_deliver, began, hframe.broken]
    rw [copies, hframe.sent, copies]
  have hperm := @pendingChanges_began _ _ _ _ owner body stamp (first :: rest) rest first
    (some d.begun.length) takes
  by_cases hstamp : stamp = .change index
  · -- the change was waiting, so nobody had a copy
    obtain ⟨hbefore, hnow⟩ : index ∈ d.waitingChanges ∧ index ∉ source.waitingChanges := by
      rcases takes.waiting with ⟨started, hstarted, hwaiting⟩ | ⟨hsnapshot, -⟩
      · rw [hstamp] at hstarted
        cases hstarted
        have hnodup := (List.nodup_append.mp h.once).1
        rw [hwaiting.nodup_iff] at hnodup
        exact ⟨hwaiting.mem_iff.mpr List.mem_cons_self, (List.nodup_cons.mp hnodup).1⟩
      · rw [hstamp] at hsnapshot
        cases hsnapshot
    have hzero := haccount.waiting hbefore
    constructor
    case waiting =>
      intro hmem
      rw [hsame.waitingChanges] at hmem
      exact absurd hmem hnow
    case inflight =>
      intro broadcast hmem hbroadcast
      rw [hsame.inflight, hinflight] at hmem
      rcases List.mem_append.mp hmem with hold | hnew
      · exact absurd hbefore (h.not_waiting hold hbroadcast)
      · rw [List.mem_singleton.mp hnew, hcopies, hzero]
        have hnodup : (first :: rest).Nodup := order.nodup_iff.mpr h.coherent.clients
        by_cases hfirst : writer = first
        · subst hfirst
          refine .inr ⟨(List.nodup_cons.mp hnodup).1, ?_⟩
          cases hbroken : d.broken writer with
          | false => exact .inl (by simp [hstamp])
          | true => exact .inr (.inr ⟨rfl, rfl⟩)
        · refine .inl ⟨?_, by simp [hfirst]⟩
          exact (List.mem_cons.mp (order.mem_iff.mpr hclient)).resolve_left hfirst
    case ended =>
      intro hover
      refine absurd (mem_pendingChanges.mpr (.inr ⟨⟨owner, ⟨body, stamp, some d.begun.length⟩,
        first, !d.broken first, rest, []⟩, ?_, hstamp⟩)) hover
      rw [hsame.inflight, hinflight]
      exact List.mem_append_right _ (List.mem_singleton.mpr rfl)
  · refine haccount.of_same ?_ ?_ ?_ ?_
    · intro hmem
      rw [hsame.waitingChanges] at hmem
      rcases takes.waiting with ⟨started, -, hwaiting⟩ | ⟨-, hwaiting⟩
      · exact hwaiting.mem_iff.mpr (List.mem_cons_of_mem _ hmem)
      · exact hwaiting ▸ hmem
    · intro broadcast hmem hbroadcast
      rw [hsame.inflight, hinflight] at hmem
      rcases List.mem_append.mp hmem with hold | hnew
      · exact hold
      · rw [List.mem_singleton.mp hnew] at hbroadcast
        exact absurd hbroadcast hstamp
    · intro hpending
      rw [pendingChanges, hsame.waitingChanges, hsame.inflight, ← pendingChanges]
      exact hperm.mem_iff.mpr hpending
    · rw [hcopies, if_neg fun hall => hstamp hall.2.2, Nat.add_zero]

theorem mem_deadAfter {drainRaises : Bool} (h : Failing broadcast writer) :
    writer ∈ d.deadAfter broadcast drainRaises := by
  unfold deadAfter
  rcases h with hdead | ⟨rfl, haccepted⟩
  · split
    · exact List.mem_append_left _ hdead
    · exact hdead
  · rw [haccepted]
    exact List.mem_append_right _ List.mem_cons_self

/-- A broadcast goes on: the next client gets its copy, the current one has had its turn. -/
theorem accounted_advanced (h : Delivery d) {drainRaises : Bool} {next : Writer}
    {rest : List Writer} (suspended : d.inflight = earlier ++ broadcast :: later)
    (remaining : broadcast.remaining = next :: rest)
    (haccount : d.Accounted writer index) (hbefore : after.inflight = earlier ++
      { broadcast with
        current := next
        accepted := !d.broken next
        remaining := rest
        dead := d.deadAfter broadcast drainRaises } :: later)
    (hwaiting : after.waitingChanges = d.waitingChanges)
    (hcopies : after.copies writer index = d.copies writer index +
      if d.broken next = false ∧ writer = next ∧ broadcast.message.stamp = .change index
      then 1 else 0) : after.Accounted writer index := by
  have hmem : broadcast ∈ d.inflight := mem_of_suspended suspended
  have hpending : after.pendingChanges = d.pendingChanges :=
    pendingChanges_advanced suspended hbefore rfl hwaiting
  by_cases hstamp : broadcast.message.stamp = .change index
  · constructor
    case waiting =>
      intro hindex
      rw [hwaiting] at hindex
      exact absurd hindex (h.not_waiting hmem hstamp)
    case inflight =>
      intro other hother hsame
      rw [hbefore] at hother
      rcases mem_middle.mp hother with rfl | hother
      · rw [hcopies]
        have hnodup := h.turns broadcast hmem
        have hbroadcast := haccount.inflight broadcast hmem hstamp
        rw [remaining] at hnodup hbroadcast
        by_cases hnext : writer = next
        · subst hnext
          -- it has had no copy before its turn
          have hzero : d.copies writer index = 0 := by
            rcases hbroadcast with ⟨-, hzero⟩ | ⟨hnot, -⟩
            · exact hzero
            · exact absurd List.mem_cons_self hnot
          refine .inr ⟨(List.nodup_cons.mp hnodup).1, ?_⟩
          rw [hzero]
          cases hbroken : d.broken writer with
          | false => exact .inl (by simp [hstamp])
          | true => exact .inr (.inr ⟨rfl, rfl⟩)
        · rw [if_neg fun hall => hnext hall.2.1, Nat.add_zero]
          rcases hbroadcast with ⟨hturn, hzero⟩ | ⟨hnot, hdone⟩
          · exact .inl ⟨(List.mem_cons.mp hturn).resolve_left hnext, hzero⟩
          · refine .inr ⟨fun hrest => hnot (List.mem_cons_of_mem _ hrest), ?_⟩
            exact hdone.imp_right fun hfailing => .inl (mem_deadAfter hfailing)
      · exact absurd hsame (h.only_broadcast suspended hstamp hother)
    case ended =>
      intro hover
      rw [hpending] at hover
      exact absurd (mem_pendingChanges.mpr (.inr ⟨broadcast, hmem, hstamp⟩)) hover
  · refine haccount.of_same ?_ ?_ ?_ ?_
    · rw [hwaiting]
      exact id
    · intro other hother hsame
      rw [hbefore] at hother
      rw [suspended]
      rcases mem_middle.mp hother with rfl | hother
      · exact absurd hsame hstamp
      · exact mem_middle.mpr (.inr hother)
    · rw [hpending]
      exact id
    · rw [hcopies, if_neg fun hall => hstamp hall.2.2, Nat.add_zero]

/-- A broadcast ends: whoever it did not reach is dropped. -/
theorem accounted_finished (h : Delivery d) {drainRaises : Bool}
    (suspended : d.inflight = earlier ++ broadcast :: later)
    (remaining : broadcast.remaining = [])
    (haccount : d.Accounted writer index)
    (hkept : writer ∉ d.deadAfter broadcast drainRaises)
    (hafter : after.inflight = earlier ++ later)
    (hwaiting : after.waitingChanges = d.waitingChanges)
    (hcopies : after.copies writer index = d.copies writer index) :
    after.Accounted writer index := by
  have hmem : broadcast ∈ d.inflight := mem_of_suspended suspended
  by_cases hstamp : broadcast.message.stamp = .change index
  · have hone : after.copies writer index = 1 := by
      rw [hcopies]
      rcases haccount.inflight broadcast hmem hstamp with ⟨hturn, -⟩ | ⟨-, hone | hfailing⟩
      · rw [remaining] at hturn
        exact absurd hturn List.not_mem_nil
      · exact hone
      · exact absurd (mem_deadAfter hfailing) hkept
    refine ⟨fun hindex => ?_, fun other hother hsame => ?_, fun _ => hone⟩
    · rw [hwaiting] at hindex
      exact absurd hindex (h.not_waiting hmem hstamp)
    · rw [hafter] at hother
      exact absurd hsame (h.only_broadcast suspended hstamp hother)
  · refine haccount.of_same ?_ ?_ ?_ hcopies
    · rw [hwaiting]
      exact id
    · intro other hother _
      rw [hafter] at hother
      exact mem_of_others suspended hother
    · intro hpending
      rw [mem_pendingChanges] at hpending ⊢
      rw [hwaiting, hafter]
      refine hpending.imp_right fun ⟨other, hother, hsame⟩ => ⟨other, ?_, hsame⟩
      rw [suspended] at hother
      rcases mem_middle.mp hother with rfl | hother
      · exact absurd hsame hstamp
      · exact hother

/-- **One action keeps the accounts.** -/
theorem delivery_of_move (h : Delivery d) (move : Move floatText d action planned written) :
    Delivery (deliver (planned, written)) := by
  have hcoherent := coherent_of_move h.coherent move
  have hbounded := bounded_of_move h.bounded move
  have hsame := sameButSent_deliver planned written
  cases move with
  | broke =>
      exact delivery_of_quiet h hcoherent hbounded (quiet_of_same rfl rfl rfl) (fun _ _ => rfl)
        fun _ hclient => .inl ⟨hclient, rfl⟩
  | left =>
      exact delivery_of_quiet h hcoherent hbounded (quiet_of_same rfl rfl rfl) (fun _ _ => rfl)
        fun _ hclient => .inl ⟨List.mem_of_mem_erase hclient, rfl⟩
  | accepted =>
      refine delivery_of_quiet h hcoherent hbounded (quiet_of_same rfl ?_ rfl) (fun _ _ => rfl)
        fun _ hclient => .inl ⟨hclient, rfl⟩
      simp [deliver, waitingChanges]
  | touched sameTags =>
      refine delivery_of_quiet h hcoherent hbounded (quiet_of_same rfl ?_ rfl) (fun _ _ => rfl)
        fun _ hclient => .inl ⟨hclient, rfl⟩
      rw [deliver, waitingChanges, scheduledChanges_congr sameTags, waitingChanges]
  | observed sameTags newest =>
      exact delivery_of_quiet h hcoherent hbounded (quiet_observed sameTags newest)
        (fun _ _ => rfl) fun _ hclient => .inl ⟨hclient, rfl⟩
  | swept sameTags asleep =>
      exact delivery_of_quiet h hcoherent hbounded (quiet_swept sameTags asleep)
        (fun _ _ => rfl) fun _ hclient => .inl ⟨hclient, rfl⟩
  | @greeted order ts greetedWriter rest oldest =>
      refine delivery_of_quiet h hcoherent hbounded (quiet_of_same hsame.inflight ?_ hsame.changes)
        (fun writer index => ?_) fun writer hclient => ?_
      · rw [hsame.waitingChanges, waitingChanges, waitingChanges, oldest]
        rfl
      · refine (copies_deliver greetedWriter _).trans ?_
        -- a snapshot is no copy of any diff
        rw [if_neg fun hall => by cases hall.2.2]
        rfl
      · rw [hsame.clients] at hclient
        rw [hsame.joined, hsame.changes]
        by_cases hnew : writer = greetedWriter
        · subst hnew
          right
          change d.changes.length ≤ Function.update d.joined writer d.changes.length writer
          rw [Function.update_self]
        · refine .inl ⟨?_, Function.update_of_ne hnew _ _⟩
          rcases List.mem_append.mp hclient with hold | hgreeted
          · exact hold
          · exact absurd (List.mem_singleton.mp hgreeted) hnew
  | skipped takes nobody => exact delivery_skipped h hcoherent hbounded takes nobody
  | @began action owner body stamp first rest source takes order =>
      have hframe := takes.frame
      refine ⟨hcoherent, hbounded, ?_, ?_, fun writer hclient index hjoined hindex => ?_⟩
      · rw [pendingChanges, hsame.waitingChanges, hsame.inflight, ← pendingChanges,
          (pendingChanges_began takes).nodup_iff]
        exact h.once
      · rw [hsame.inflight, began, hframe.inflight]
        intro broadcast hmem
        rcases List.mem_append.mp hmem with hold | hnew
        · exact h.turns broadcast hold
        · rw [List.mem_singleton.mp hnew]
          exact (order.nodup_iff.mpr h.coherent.clients).of_cons
      · rw [hsame.clients, began, hframe.clients] at hclient
        rw [hsame.joined, began, hframe.joined] at hjoined
        rw [hsame.changes, began, hframe.changes] at hindex
        exact accounted_began h takes order hclient
          (h.accounted writer hclient index hjoined hindex)
  | @advanced drainRaises earlier later broadcast next rest suspended remaining =>
      have hmem : broadcast ∈ d.inflight := mem_of_suspended suspended
      refine ⟨hcoherent, hbounded, ?_, ?_, fun writer hclient index hjoined hindex => ?_⟩
      · rw [pendingChanges_advanced suspended hsame.inflight rfl hsame.waitingChanges]
        exact h.once
      · rw [hsame.inflight]
        intro other hother
        rcases mem_middle.mp hother with rfl | hother
        · have hnodup := h.turns broadcast hmem
          rw [remaining] at hnodup
          exact hnodup.of_cons
        · exact h.turns other (mem_of_others suspended hother)
      · rw [hsame.clients] at hclient
        rw [hsame.joined] at hjoined
        rw [hsame.changes] at hindex
        exact accounted_advanced h suspended remaining
          (h.accounted writer hclient index hjoined hindex) hsame.inflight hsame.waitingChanges
          (copies_deliver next broadcast.message)
  | @finished drainRaises earlier later broadcast suspended remaining =>
      refine ⟨hcoherent, hbounded, ?_, fun other hother => ?_,
        fun writer hclient index hjoined hindex => ?_⟩
      · exact h.once.sublist (pendingChanges_finished suspended rfl rfl)
      · exact h.turns other (mem_of_others suspended hother)
      · obtain ⟨hregistered, hkept⟩ := List.mem_filter.mp hclient
        exact accounted_finished h suspended remaining
          (h.accounted writer hregistered index hjoined hindex) (of_decide_eq_true hkept) rfl rfl
          rfl

theorem delivery_fresh (registry : SessionRegistry) : Delivery (fresh registry) where
  coherent := coherent_fresh registry
  bounded := bounded_fresh registry
  once := List.nodup_nil
  turns _ h := absurd h List.not_mem_nil
  accounted _ h := absurd h List.not_mem_nil

end EventLoop

end Daemon
end SiliconOffice
