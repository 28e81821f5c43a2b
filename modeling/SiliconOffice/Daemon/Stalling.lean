import Mathlib.Data.List.Nodup
import SiliconOffice.Daemon.Clients
import SiliconOffice.Library.Runs

/-!
# Clients that stop reading

The drain of a stalled client never returns, and `_broadcast` awaits the drains of its
clients one after the other.  So a broadcast gets as far as the first stalled client in
the order in which it copied the set: `Progress` keeps track of how far each broadcast
has come, and in a quiescent state every broadcast that is not over stands at a stalled
client.

`isolated_iff` is what follows: the other clients get everything, and the two background
loops stay free, exactly when the stalled clients come last in every diff's order and
take part in no broadcast of the reaper or of the snapshot loop.
-/

namespace SiliconOffice
namespace Daemon

open Library Python Common

/-- The actions by which a task of the daemon goes on; the others come from outside or
from a timer. -/
def Action.ofTask : Action → Bool
  | start _ _ | announce _ _ | resume _ _ => true
  | _ => false

namespace EventLoop

/-- The broadcast with this number has been written to the client. -/
def Written (d : EventLoop) (serial : Nat) (writer : Writer) : Prop :=
  ∃ message ∈ d.sent writer, message.serial = some serial

section

variable (repr : Json → Except PyErr String) (floatText : PyFloat → String)
  (stalled : Writer → Prop)

/-- A step of a run in which the stalled clients stop reading: their drains do not
return, and nobody disconnects. -/
def Respects (d : EventLoop) : Action → Prop
  | .resume index _ =>
      ∀ broadcast, d.inflight[index]? = some broadcast → ¬ stalled broadcast.current
  | .breaks _ | .leaves _ => False
  | _ => True

/-- No task can take a step other than waiting for the drain of a stalled client. -/
def Quiescent (d : EventLoop) : Prop :=
  ∀ action, action.ofTask = true → Respects stalled d action →
    d.step repr floatText action = none

/-- Stalled clients keep nothing from the others and hold up no background loop. -/
def Isolated (d : EventLoop) : Prop :=
  (∀ serial owner order, d.begun[serial]? = some (owner, order) →
      ∀ writer ∈ order, ¬ stalled writer → d.Written serial writer) ∧
    ∀ broadcast ∈ d.inflight, broadcast.owner ≠ .diff → ¬ stalled broadcast.current

/-- The stalled clients come last in the order of a diff and are absent from the order of
a background broadcast. -/
def Spared : Owner × List Writer → Prop
  | (.diff, order) => order.Pairwise fun earlier later => stalled earlier → stalled later
  | (_, order) => ∀ writer ∈ order, ¬ stalled writer

/-- How far each broadcast has come. -/
structure Progress (d : EventLoop) : Prop where
  coherent : Coherent d
  healthy : ∀ writer, d.broken writer = false
  distinct : (d.inflight.map (·.message.serial)).Nodup
  orders : ∀ entry ∈ d.begun, entry.2.Nodup
  numbered : ∀ serial writer, d.Written serial writer → serial < d.begun.length
  running : ∀ broadcast ∈ d.inflight, ∃ serial done,
    broadcast.message.serial = some serial ∧
      d.begun[serial]? =
        some (broadcast.owner, done ++ broadcast.current :: broadcast.remaining) ∧
      (∀ writer ∈ done, ¬ stalled writer ∧ d.Written serial writer) ∧
      d.Written serial broadcast.current ∧
      ∀ writer ∈ broadcast.remaining, ¬ d.Written serial writer
  ended : ∀ serial owner order, d.begun[serial]? = some (owner, order) →
    (∃ broadcast ∈ d.inflight, broadcast.message.serial = some serial) ∨
      ∀ writer ∈ order, ¬ stalled writer ∧ d.Written serial writer

end

variable {repr : Json → Except PyErr String} {floatText : PyFloat → String}
  {stalled : Writer → Prop} {d after : EventLoop} {action : Action}

/-! ## Quiescent states -/

theorem step_eq_none_iff :
    d.step repr floatText action = none ↔ d.plan repr floatText action = none :=
  Option.map_eq_none_iff

/-- A broadcast can always begin, with the clients in the order in which they are kept. -/
theorem broadcast_clients_ne_none (owner : Owner) (body : Json) (stamp : Stamp) :
    broadcast owner body stamp d.clients d ≠ none := by
  unfold broadcast
  rw [if_pos (List.isPerm_iff.mpr (.refl _))]
  cases d.clients <;> exact Option.some_ne_none _

/-- A suspended broadcast can always go on. -/
theorem continueBroadcast_ne_none {index : Nat} (hindex : index < d.inflight.length)
    (drainRaises : Bool) : d.continueBroadcast index drainRaises ≠ none := by
  unfold continueBroadcast
  rw [List.drop_eq_getElem_cons hindex]
  dsimp only
  split <;> exact Option.some_ne_none _

/-- In a quiescent state every broadcast stands at a stalled client. -/
theorem stuck_of_quiescent (h : Quiescent repr floatText stalled d) :
    ∀ broadcast ∈ d.inflight, stalled broadcast.current := by
  intro broadcast hmem
  by_contra hfree
  obtain ⟨index, hindex, hget⟩ := List.mem_iff_getElem.mp hmem
  by_cases hruns : d.reaperRuns = true
  · -- then the reaper itself can go on
    have hannounce := step_eq_none_iff.mp (h (.announce d.clients 0) rfl trivial)
    cases hannouncing : d.announcing with
    | nil =>
        rw [reaperRuns, hannouncing] at hruns
        cases hruns
    | cons entry rest =>
        simp only [plan, hruns, hannouncing] at hannounce
        exact @broadcast_clients_ne_none { d with announcing := rest } _ _ _ hannounce
  · have hresume := step_eq_none_iff.mp (h (.resume index false) rfl fun other hother => by
      rw [List.getElem?_eq_getElem hindex, hget] at hother
      cases hother
      exact hfree)
    rw [plan, if_neg hruns] at hresume
    exact continueBroadcast_ne_none hindex false hresume

/-- Nothing scheduled, nothing to announce and every broadcast at a stalled client: that
is a quiescent state. -/
theorem quiescent_of_stuck (hscheduled : d.scheduled = []) (hruns : d.reaperRuns = false)
    (hstuck : ∀ broadcast ∈ d.inflight, stalled broadcast.current) :
    Quiescent repr floatText stalled d := by
  intro action htask hrespects
  rw [step_eq_none_iff]
  cases action with
  | start order ts => simp only [plan, hruns, hscheduled, Bool.false_eq_true, if_false]
  | announce order ts => simp only [plan, hruns]
  | resume index drainRaises =>
      simp only [plan, hruns, Bool.false_eq_true, if_false, continueBroadcast]
      cases hdrop : d.inflight.drop index with
      | nil => rfl
      | cons broadcast later =>
          have hget : d.inflight[index]? = some broadcast := by
            rw [← List.head?_drop, hdrop]
            rfl
          exact absurd (hstuck broadcast (List.mem_of_getElem? hget)) (hrespects broadcast hget)
  | accept => cases htask
  | event host payload now => cases htask
  | sweep host => cases htask
  | tick order ts => cases htask
  | breaks writer => cases htask
  | leaves writer => cases htask

/-! ## Steps -/

theorem written_deliver {planned : EventLoop} {writer : Writer} {message : Message}
    (hhealthy : planned.broken writer = false) (serial : Nat) (other : Writer) :
    (deliver (planned, some (writer, message))).Written serial other ↔
      planned.Written serial other ∨ other = writer ∧ message.serial = some serial := by
  unfold Written
  rw [deliver, sent_write]
  by_cases hother : other = writer
  · subst hother
    simp [hhealthy, or_and_right, exists_or]
  · simp [hother]

/-- Steps that touch no broadcast keep track of nothing new. -/
theorem progress_of_same (h : Progress stalled d) (hcoherent : Coherent after)
    (hinflight : after.inflight = d.inflight) (hbegun : after.begun = d.begun)
    (hbroken : after.broken = d.broken)
    (hwritten : ∀ serial writer, after.Written serial writer ↔ d.Written serial writer) :
    Progress stalled after where
  coherent := hcoherent
  healthy := by
    rw [hbroken]
    exact h.healthy
  distinct := by
    rw [hinflight]
    exact h.distinct
  orders := by
    rw [hbegun]
    exact h.orders
  numbered serial writer hmem := by
    rw [hbegun]
    exact h.numbered serial writer ((hwritten serial writer).mp hmem)
  running := by
    simp only [hinflight, hbegun, hwritten]
    exact h.running
  ended := by
    simp only [hinflight, hbegun, hwritten]
    exact h.ended

/-- A broadcast in flight has a number below those still to come. -/
theorem Progress.serial_lt (h : Progress stalled d) {broadcast : Broadcast}
    (hmem : broadcast ∈ d.inflight) {serial : Nat}
    (hserial : broadcast.message.serial = some serial) : serial < d.begun.length := by
  obtain ⟨own, done, hown, hbegun, -⟩ := h.running broadcast hmem
  rw [hserial] at hown
  cases hown
  exact (List.getElem?_eq_some_iff.mp hbegun).1

/-- Beginning a broadcast. -/
theorem progress_began (h : Progress stalled d) (hcoherent : Coherent after) {owner : Owner}
    {body : Json} {stamp : Stamp} {first : Writer} {rest : List Writer}
    (horder : (first :: rest).Perm d.clients)
    (hinflight : after.inflight = d.inflight ++
      [⟨owner, ⟨body, stamp, some d.begun.length⟩, first, !d.broken first, rest, []⟩])
    (hbegun : after.begun = d.begun ++ [(owner, first :: rest)])
    (hbroken : after.broken = d.broken)
    (hwritten : ∀ serial writer, after.Written serial writer ↔
      d.Written serial writer ∨ writer = first ∧ some d.begun.length = some serial) :
    Progress stalled after := by
  have hnodup : (first :: rest).Nodup := horder.nodup_iff.mpr h.coherent.clients
  have hnew : ∀ writer, ¬ d.Written d.begun.length writer := fun writer hmem =>
    Nat.lt_irrefl _ (h.numbered _ _ hmem)
  constructor
  case coherent => exact hcoherent
  case healthy =>
    rw [hbroken]
    exact h.healthy
  case distinct =>
    rw [hinflight, List.map_append, List.map_singleton]
    refine List.nodup_append.mpr ⟨h.distinct, List.pairwise_singleton _ _, ?_⟩
    rintro serial hserial _ hlast rfl
    obtain ⟨broadcast, hmem, hbroadcast⟩ := List.mem_map.mp hserial
    rw [List.mem_singleton.mp hlast] at hbroadcast
    exact Nat.lt_irrefl _ (h.serial_lt hmem hbroadcast)
  case orders =>
    rw [hbegun]
    intro entry hentry
    rcases List.mem_append.mp hentry with hold | hlast
    · exact h.orders entry hold
    · rw [List.mem_singleton.mp hlast]
      exact hnodup
  case numbered =>
    intro serial writer hmem
    rw [hbegun, List.length_append, List.length_singleton]
    rcases (hwritten serial writer).mp hmem with hold | ⟨-, hserial⟩
    · exact Nat.lt_succ_of_lt (h.numbered serial writer hold)
    · cases hserial
      exact Nat.lt_succ_self _
  case running =>
    rw [hinflight]
    intro broadcast hmem
    rcases List.mem_append.mp hmem with hold | hlast
    · obtain ⟨serial, done, hserial, hentry, hdone, hcurrent, hremaining⟩ :=
        h.running broadcast hold
      have hlt := h.serial_lt hold hserial
      refine ⟨serial, done, hserial, ?_, fun writer hwriter => ?_, ?_, fun writer hwriter => ?_⟩
      · rw [hbegun, List.getElem?_append_left hlt]
        exact hentry
      · exact ⟨(hdone writer hwriter).1, (hwritten _ _).mpr (.inl (hdone writer hwriter).2)⟩
      · exact (hwritten _ _).mpr (.inl hcurrent)
      · rw [hwritten]
        rintro (hmem | ⟨-, hsame⟩)
        · exact hremaining writer hwriter hmem
        · cases hsame
          exact Nat.lt_irrefl _ hlt
    · rw [List.mem_singleton.mp hlast]
      refine ⟨d.begun.length, [], rfl, ?_, fun writer hwriter => ?_, ?_, fun writer hwriter => ?_⟩
      · rw [hbegun, List.getElem?_concat_length]
        rfl
      · exact absurd hwriter List.not_mem_nil
      · exact (hwritten _ _).mpr (.inr ⟨rfl, rfl⟩)
      · rw [hwritten]
        rintro (hmem | ⟨rfl, -⟩)
        · exact hnew writer hmem
        · exact (List.nodup_cons.mp hnodup).1 hwriter
  case ended =>
    intro serial entryOwner order hentry
    rw [hbegun] at hentry
    rw [hinflight]
    by_cases hlt : serial < d.begun.length
    · rw [List.getElem?_append_left hlt] at hentry
      rcases h.ended serial entryOwner order hentry with ⟨broadcast, hmem, hserial⟩ | hall
      · exact .inl ⟨broadcast, List.mem_append_left _ hmem, hserial⟩
      · exact .inr fun writer hwriter =>
          ⟨(hall writer hwriter).1, (hwritten _ _).mpr (.inl (hall writer hwriter).2)⟩
    · have hserial : serial = d.begun.length := by
        have hbound := (List.getElem?_eq_some_iff.mp hentry).1
        rw [List.length_append, List.length_singleton] at hbound
        omega
      subst hserial
      exact .inl ⟨_, List.mem_append_right _ (List.mem_singleton.mpr rfl), rfl⟩

/-- The other broadcasts have other numbers. -/
theorem Progress.serial_ne (h : Progress stalled d) {earlier later : List Broadcast}
    {broadcast other : Broadcast} (hinflight : d.inflight = earlier ++ broadcast :: later)
    (hother : other ∈ earlier ++ later) :
    other.message.serial ≠ broadcast.message.serial := by
  have hdistinct := h.distinct
  rw [hinflight, List.map_append, List.map_cons, List.nodup_middle, ← List.map_append] at hdistinct
  intro hsame
  exact (List.nodup_cons.mp hdistinct).1 (hsame ▸ List.mem_map_of_mem hother)

/-- A drain returns and the broadcast goes on to its next client. -/
theorem progress_advanced (h : Progress stalled d) (hcoherent : Coherent after)
    {earlier later : List Broadcast} {broadcast moved : Broadcast} {next : Writer}
    {rest : List Writer} (hbefore : d.inflight = earlier ++ broadcast :: later)
    (hremaining : broadcast.remaining = next :: rest) (hfree : ¬ stalled broadcast.current)
    (hinflight : after.inflight = earlier ++ moved :: later)
    (howner : moved.owner = broadcast.owner) (hmessage : moved.message = broadcast.message)
    (hcurrent : moved.current = next) (hrest : moved.remaining = rest)
    (hbegun : after.begun = d.begun) (hbroken : after.broken = d.broken)
    (hwritten : ∀ serial writer, after.Written serial writer ↔
      d.Written serial writer ∨ writer = next ∧ broadcast.message.serial = some serial) :
    Progress stalled after := by
  have hmem : broadcast ∈ d.inflight := mem_of_suspended hbefore
  obtain ⟨serial, done, hserial, hentry, hdone, hwrittenCurrent, hunwritten⟩ :=
    h.running broadcast hmem
  constructor
  case coherent => exact hcoherent
  case healthy =>
    rw [hbroken]
    exact h.healthy
  case distinct =>
    have hdistinct := h.distinct
    rw [hbefore, List.map_append, List.map_cons] at hdistinct
    rw [hinflight, List.map_append, List.map_cons, hmessage]
    exact hdistinct
  case orders =>
    rw [hbegun]
    exact h.orders
  case numbered =>
    intro other writer hother
    rw [hbegun]
    rcases (hwritten other writer).mp hother with hold | ⟨-, hsame⟩
    · exact h.numbered other writer hold
    · exact h.serial_lt hmem hsame
  case running =>
    rw [hinflight, hbegun]
    intro other hother
    rcases mem_middle.mp hother with rfl | hother
    · refine ⟨serial, done ++ [broadcast.current], by rw [hmessage]; exact hserial, ?_, ?_, ?_, ?_⟩
      · rw [hentry, howner, hcurrent, hrest, hremaining, List.append_assoc, List.singleton_append]
      · intro writer hwriter
        rcases List.mem_append.mp hwriter with hold | hlast
        · exact ⟨(hdone writer hold).1, (hwritten _ _).mpr (.inl (hdone writer hold).2)⟩
        · rw [List.mem_singleton.mp hlast]
          exact ⟨hfree, (hwritten _ _).mpr (.inl hwrittenCurrent)⟩
      · rw [hcurrent]
        exact (hwritten _ _).mpr (.inr ⟨rfl, hserial⟩)
      · rw [hrest]
        intro writer hwriter
        rw [hwritten]
        rintro (hmemWritten | ⟨rfl, -⟩)
        · exact hunwritten writer (hremaining ▸ List.mem_cons_of_mem _ hwriter) hmemWritten
        · -- a client stands in the order only once
          have hnodup := h.orders _ (List.mem_of_getElem? hentry)
          rw [hremaining] at hnodup
          have htail := (List.nodup_append.mp hnodup).2.1.of_cons
          exact (List.nodup_cons.mp htail).1 hwriter
    · obtain ⟨own, otherDone, hown, hotherEntry, hotherDone, hotherCurrent, hotherRest⟩ :=
        h.running other (mem_of_others hbefore hother)
      refine ⟨own, otherDone, hown, hotherEntry, fun writer hwriter => ?_, ?_,
        fun writer hwriter => ?_⟩
      · exact ⟨(hotherDone writer hwriter).1,
          (hwritten _ _).mpr (.inl (hotherDone writer hwriter).2)⟩
      · exact (hwritten _ _).mpr (.inl hotherCurrent)
      · rw [hwritten]
        rintro (hmemWritten | ⟨-, hsame⟩)
        · exact hotherRest writer hwriter hmemWritten
        · exact h.serial_ne hbefore hother (hown.trans hsame.symm)
  case ended =>
    intro other owner order hother
    rw [hbegun] at hother
    rw [hinflight]
    rcases h.ended other owner order hother with ⟨witness, hwitness, hsame⟩ | hall
    · left
      rw [hbefore] at hwitness
      rcases mem_middle.mp hwitness with rfl | hwitness
      · exact ⟨moved, mem_middle.mpr (.inl rfl), by rw [hmessage]; exact hsame⟩
      · exact ⟨witness, mem_middle.mpr (.inr hwitness), hsame⟩
    · exact .inr fun writer hwriter =>
        ⟨(hall writer hwriter).1, (hwritten _ _).mpr (.inl (hall writer hwriter).2)⟩

/-- The drain of the last client returns. -/
theorem progress_finished (h : Progress stalled d) (hcoherent : Coherent after)
    {earlier later : List Broadcast} {broadcast : Broadcast}
    (hbefore : d.inflight = earlier ++ broadcast :: later)
    (hremaining : broadcast.remaining = []) (hfree : ¬ stalled broadcast.current)
    (hinflight : after.inflight = earlier ++ later) (hbegun : after.begun = d.begun)
    (hbroken : after.broken = d.broken)
    (hwritten : ∀ serial writer, after.Written serial writer ↔ d.Written serial writer) :
    Progress stalled after := by
  have hmem : broadcast ∈ d.inflight := mem_of_suspended hbefore
  obtain ⟨serial, done, hserial, hentry, hdone, hwrittenCurrent, -⟩ := h.running broadcast hmem
  constructor
  case coherent => exact hcoherent
  case healthy =>
    rw [hbroken]
    exact h.healthy
  case distinct =>
    have hdistinct := h.distinct
    rw [hbefore, List.map_append, List.map_cons, List.nodup_middle, ← List.map_append] at hdistinct
    rw [hinflight]
    exact hdistinct.of_cons
  case orders =>
    rw [hbegun]
    exact h.orders
  case numbered =>
    intro other writer hother
    rw [hbegun]
    exact h.numbered other writer ((hwritten _ _).mp hother)
  case running =>
    simp only [hinflight, hbegun, hwritten]
    exact fun other hother => h.running other (mem_of_others hbefore hother)
  case ended =>
    simp only [hinflight, hbegun, hwritten]
    intro other owner order hother
    rcases h.ended other owner order hother with ⟨witness, hwitness, hsame⟩ | hall
    · rw [hbefore] at hwitness
      rcases mem_middle.mp hwitness with rfl | hwitness
      · right
        rw [hserial] at hsame
        cases hsame
        rw [hentry] at hother
        cases hother
        intro writer hwriter
        rw [hremaining] at hwriter
        rcases List.mem_append.mp hwriter with hdoneMem | hlast
        · exact hdone writer hdoneMem
        · rw [List.mem_singleton.mp hlast]
          exact ⟨hfree, hwrittenCurrent⟩
      · exact .inl ⟨witness, hwitness, hsame⟩
    · exact .inr hall

/-- Only a drain of a client that reads can return. -/
theorem not_stalled_of_respects {earlier later : List Broadcast} {broadcast : Broadcast}
    {drainRaises : Bool} (hrespects : Respects stalled d (.resume earlier.length drainRaises))
    (suspended : d.inflight = earlier ++ broadcast :: later) : ¬ stalled broadcast.current := by
  refine hrespects broadcast ?_
  rw [suspended, List.getElem?_append_right (Nat.le_refl _), Nat.sub_self]
  rfl

/-- **A step that respects the stalled clients moves at most one broadcast.** -/
theorem progress_step (h : Progress stalled d) (hrespects : Respects stalled d action)
    (hstep : d.step repr floatText action = some after) : Progress stalled after := by
  obtain ⟨planned, written, -, move, rfl⟩ := move_of_step hstep
  have hcoherent := coherent_of_move h.coherent move
  have hhealthy := h.healthy
  cases move with
  | broke => exact absurd hrespects id
  | left => exact absurd hrespects id
  | accepted => exact progress_of_same h hcoherent rfl rfl rfl fun _ _ => .rfl
  | touched => exact progress_of_same h hcoherent rfl rfl rfl fun _ _ => .rfl
  | observed => exact progress_of_same h hcoherent rfl rfl rfl fun _ _ => .rfl
  | swept => exact progress_of_same h hcoherent rfl rfl rfl fun _ _ => .rfl
  | skipped takes =>
      have hframe := takes.frame
      exact progress_of_same h hcoherent hframe.inflight hframe.begun hframe.broken
        fun serial writer => by rw [deliver, Written, hframe.sent, Written]
  | @greeted order ts writer rest oldest =>
      have hsame := sameButSent_deliver (greet floatText writer ts { d with scheduled := rest }).1
        (greet floatText writer ts { d with scheduled := rest }).2
      refine progress_of_same h hcoherent hsame.inflight hsame.begun hsame.broken
        fun serial other => ?_
      -- a greeting has no number
      refine (written_deliver ?_ serial other).trans (or_iff_left fun hnew => by cases hnew.2)
      exact hhealthy writer
  | @began action owner body stamp first rest source takes order =>
      have hframe := takes.frame
      have hsame := sameButSent_deliver
        (source.began owner ⟨body, stamp, some d.begun.length⟩ first rest)
        (some (first, ⟨body, stamp, some d.begun.length⟩))
      refine @progress_began stalled d _ h hcoherent owner body stamp first rest order ?_ ?_ ?_ ?_
      · rw [hsame.inflight, began, hframe.inflight, hframe.broken]
      · rw [hsame.begun, began, hframe.begun]
      · rw [hsame.broken, began, hframe.broken]
      · intro serial writer
        have hsource : (source.began owner ⟨body, stamp, some d.begun.length⟩ first rest).broken
            first = false := by
          rw [began, hframe.broken]
          exact hhealthy first
        refine (written_deliver hsource serial writer).trans ?_
        rw [Written, began, hframe.sent, Written]
  | @advanced drainRaises earlier later broadcast next rest suspended remaining =>
      have hfree : ¬ stalled broadcast.current := not_stalled_of_respects hrespects suspended
      refine @progress_advanced stalled d _ h hcoherent earlier later broadcast
        { broadcast with
          current := next
          accepted := !d.broken next
          remaining := rest
          dead := d.deadAfter broadcast drainRaises }
        next rest suspended remaining hfree ?_ rfl rfl rfl rfl ?_ ?_ ?_
      · exact (sameButSent_deliver _ _).inflight
      · exact (sameButSent_deliver _ _).begun
      · exact (sameButSent_deliver _ _).broken
      · refine fun serial writer => written_deliver ?_ serial writer
        exact hhealthy next
  | @finished drainRaises earlier later broadcast suspended remaining =>
      have hfree : ¬ stalled broadcast.current := not_stalled_of_respects hrespects suspended
      exact progress_finished h hcoherent suspended remaining hfree rfl rfl rfl fun _ _ => .rfl

theorem progress_fresh (registry : SessionRegistry) : Progress stalled (fresh registry) where
  coherent := coherent_fresh registry
  healthy _ := rfl
  distinct := List.nodup_nil
  orders _ h := absurd h List.not_mem_nil
  numbered _ _ h := by
    obtain ⟨message, hmem, -⟩ := h
    exact absurd hmem List.not_mem_nil
  running _ h := absurd h List.not_mem_nil
  ended _ _ _ h := by cases h

/-! ## Who is spared -/

theorem isolated_iff_of_progress (h : Progress stalled d)
    (hstuck : ∀ broadcast ∈ d.inflight, stalled broadcast.current) :
    Isolated stalled d ↔ ∀ entry ∈ d.begun, Spared stalled entry := by
  constructor
  · rintro ⟨hdelivered, hloops⟩ ⟨owner, order⟩ hentry
    obtain ⟨serial, hserial⟩ := List.mem_iff_getElem?.mp hentry
    rcases h.ended serial owner order hserial with ⟨broadcast, hmem, hsame⟩ | hall
    · obtain ⟨own, done, hown, hbegun, hdone, -, hunwritten⟩ := h.running broadcast hmem
      rw [hsame] at hown
      cases hown
      rw [hserial] at hbegun
      cases hbegun
      have hdiff : broadcast.owner = .diff := by
        by_contra hother
        exact hloops broadcast hmem hother (hstuck broadcast hmem)
      rw [hdiff]
      -- whoever is left is stalled, or the broadcast would have been written to it
      have hrest : ∀ writer ∈ broadcast.remaining, stalled writer := fun writer hwriter => by
        by_contra hfree
        refine hunwritten writer hwriter (hdelivered serial _ _ hserial writer ?_ hfree)
        exact List.mem_append_right _ (List.mem_cons_of_mem _ hwriter)
      refine List.pairwise_append.mpr ⟨?_, List.pairwise_cons.mpr ⟨?_, ?_⟩, ?_⟩
      · exact List.pairwise_of_forall_mem_list fun writer hwriter _ _ hstalled =>
          absurd hstalled (hdone writer hwriter).1
      · exact fun writer hwriter _ => hrest writer hwriter
      · exact List.pairwise_of_forall_mem_list fun _ _ writer hwriter _ => hrest writer hwriter
      · exact fun writer hwriter _ _ hstalled => absurd hstalled (hdone writer hwriter).1
    · cases owner with
      | diff =>
          exact List.pairwise_of_forall_mem_list fun writer hwriter _ _ hstalled =>
            absurd hstalled (hall writer hwriter).1
      | reaper => exact fun writer hwriter => (hall writer hwriter).1
      | ticker => exact fun writer hwriter => (hall writer hwriter).1
  · intro hspared
    have hcurrent : ∀ broadcast ∈ d.inflight, broadcast.owner = .diff ∧
        ∀ writer ∈ broadcast.remaining, stalled writer := by
      intro broadcast hmem
      obtain ⟨serial, done, -, hbegun, -, -, -⟩ := h.running broadcast hmem
      have hentry := hspared _ (List.mem_of_getElem? hbegun)
      have hstalled := hstuck broadcast hmem
      have hinOrder : broadcast.current ∈ done ++ broadcast.current :: broadcast.remaining :=
        List.mem_append_right _ List.mem_cons_self
      cases howner : broadcast.owner with
      | diff =>
          rw [howner] at hentry
          have htail := (List.pairwise_append.mp hentry).2.1
          exact ⟨rfl, fun writer hwriter => List.rel_of_pairwise_cons htail hwriter hstalled⟩
      | reaper =>
          rw [howner] at hentry
          exact absurd hstalled (hentry _ hinOrder)
      | ticker =>
          rw [howner] at hentry
          exact absurd hstalled (hentry _ hinOrder)
    refine ⟨fun serial owner order hserial writer hwriter hfree => ?_,
      fun broadcast hmem hother => absurd (hcurrent broadcast hmem).1 hother⟩
    rcases h.ended serial owner order hserial with ⟨broadcast, hmem, hsame⟩ | hall
    · obtain ⟨own, done, hown, hbegun, hdone, hwritten, -⟩ := h.running broadcast hmem
      rw [hsame] at hown
      cases hown
      rw [hserial] at hbegun
      cases hbegun
      rcases List.mem_append.mp hwriter with hdoneMem | htail
      · exact (hdone writer hdoneMem).2
      · rcases List.mem_cons.mp htail with rfl | hrest
        · exact hwritten
        · exact absurd ((hcurrent broadcast hmem).2 writer hrest) hfree
    · exact (hall writer hwriter).2

/-- **When stalled clients are isolated.**  In every quiescent state of every run. -/
theorem isolated_iff (repr : Json → Except PyErr String) (floatText : PyFloat → String)
    (stalled : Writer → Prop) (registry : SessionRegistry) (actions : List Action)
    (final : EventLoop)
    (hrun : Run (step repr floatText) (Respects stalled) (fresh registry) actions final)
    (hquiescent : Quiescent repr floatText stalled final) :
    Isolated stalled final ↔ ∀ entry ∈ final.begun, Spared stalled entry :=
  isolated_iff_of_progress
    (hrun.invariant (progress_fresh registry)
      fun _ _ _ h hrespects hstep => progress_step h hrespects hstep)
    (stuck_of_quiescent hquiescent)

/-! ### Clients before and behind a stalled one -/

def promptOf (sessionId : String) : Json :=
  .obj [("session_id", .str sessionId), ("hook_event_name", .str "UserPromptSubmit")]

/-- Two clients connect and one event is broadcast, in this order. -/
def stalledIn (order : List Writer) : List Action :=
  [.accept, .start [] 1, .accept, .start [] 2, .event quietHost (promptOf "s1") 3,
    .start order 4]

/-- Nobody disconnects and no drain returns. -/
theorem respects_stalledIn (order : List Writer) :
    ∀ action ∈ stalledIn order, ∀ state, Respects stalled state action := by
  intro action haction state
  simp only [stalledIn, List.mem_cons, List.not_mem_nil, or_false] at haction
  rcases haction with rfl | rfl | rfl | rfl | rfl | rfl <;> trivial

/-- With the stalled client 0 last, client 1 is written the diff before the broadcast stands
still. -/
theorem isolated_iff_stalledLast :
    ∃ final, Run (step (fun _ => .ok "") fun _ => "") (Respects (· = 0)) (fresh .fresh)
        (stalledIn [1, 0] ++ [.resume 0 false]) final ∧
      Quiescent (fun _ => .ok "") (fun _ => "") (· = 0) final ∧
      final.inflight.map (·.current) = [0] ∧ final.begun = [(.diff, [1, 0])] ∧
      (final.sent 1).map (·.serial) = [none, some 0] ∧ Isolated (· = 0) final := by
  obtain ⟨before, final, hbefore, hcurrent, hresumed, hscheduled, hruns, hstuck, hbegun, hsent⟩ :
      ∃ before final, runActions (step (fun _ => .ok "") fun _ => "") (fresh .fresh)
          (stalledIn [1, 0]) = some before ∧
        before.inflight.map (·.current) = [1] ∧
        before.step (fun _ => .ok "") (fun _ => "") (.resume 0 false) = some final ∧
        final.scheduled = [] ∧ final.reaperRuns = false ∧
        final.inflight.map (·.current) = [0] ∧ final.begun = [(.diff, [1, 0])] ∧
        (final.sent 1).map (·.serial) = [none, some 0] :=
    ⟨_, _, rfl, rfl, rfl, rfl, rfl, rfl, rfl, rfl⟩
  have hrun : Run (step (fun _ => .ok "") fun _ => "") (Respects (· = 0)) (fresh .fresh)
      (stalledIn [1, 0] ++ [.resume 0 false]) final := by
    refine .snoc (run_of_runActions hbefore (respects_stalledIn [1, 0])) ?_ hresumed
    -- the drain that returns is that of client 1
    intro broadcast hget hstalled
    have hmapped : broadcast.current ∈ before.inflight.map (·.current) :=
      List.mem_map_of_mem (List.mem_of_getElem? hget)
    rw [hcurrent, hstalled] at hmapped
    exact absurd hmapped (by decide)
  have hquiescent : Quiescent (fun _ => .ok "") (fun _ => "") (· = 0) final :=
    quiescent_of_stuck hscheduled hruns fun broadcast hmem =>
      List.mem_singleton.mp (hstuck ▸ List.mem_map_of_mem hmem)
  have hspared : ∀ entry ∈ final.begun, Spared (· = 0) entry := by
    intro entry hentry
    rw [hbegun] at hentry
    rw [List.mem_singleton.mp hentry]
    show List.Pairwise (fun earlier later => earlier = 0 → later = 0) [1, 0]
    decide
  exact ⟨final, hrun, hquiescent, hstuck, hbegun, hsent,
    (isolated_iff (fun _ => .ok "") (fun _ => "") (· = 0) .fresh _ final hrun hquiescent).mpr
      hspared⟩

theorem run_stalledFirst :
    ∃ final, Run (step (fun _ => .ok "") fun _ => "") (Respects (· = 0)) (fresh .fresh)
        (stalledIn [0, 1]) final ∧
      Quiescent (fun _ => .ok "") (fun _ => "") (· = 0) final ∧
      final.begun = [(.diff, [0, 1])] ∧
      (final.sent 1).map (·.serial) = [none] := by
  obtain ⟨final, hrun, hscheduled, hruns, hstuck, hbegun, hsent⟩ :
      ∃ final, runActions (step (fun _ => .ok "") fun _ => "") (fresh .fresh)
          (stalledIn [0, 1]) = some final ∧
        final.scheduled = [] ∧ final.reaperRuns = false ∧
        final.inflight.map (·.current) = [0] ∧ final.begun = [(.diff, [0, 1])] ∧
        (final.sent 1).map (·.serial) = [none] := ⟨_, rfl, rfl, rfl, rfl, rfl, rfl⟩
  refine ⟨final, run_of_runActions hrun (respects_stalledIn [0, 1]),
    quiescent_of_stuck hscheduled hruns fun broadcast hmem => ?_, hbegun, hsent⟩
  exact List.mem_singleton.mp (hstuck ▸ List.mem_map_of_mem hmem)

/-- Client 0 does not read, and client 1 never gets the diff. -/
theorem stalled_client_starves_other :
    ¬ ∀ (repr : Json → Except PyErr String) (floatText : PyFloat → String)
      (stalled : Writer → Prop) (registry : SessionRegistry) (actions : List Action)
      (final : EventLoop),
      Run (step repr floatText) (Respects stalled) (fresh registry) actions final →
        Quiescent repr floatText stalled final → Isolated stalled final := by
  intro hclaim
  obtain ⟨final, hrun, hquiescent, hbegun, hsent⟩ := run_stalledFirst
  obtain ⟨hdelivered, -⟩ := hclaim _ _ _ .fresh (stalledIn [0, 1]) final hrun hquiescent
  obtain ⟨message, hmem, hserial⟩ := hdelivered 0 .diff [0, 1] (by rw [hbegun]; rfl) 1
    (by decide) (by decide)
  have hmapped : message.serial ∈ (final.sent 1).map (·.serial) := List.mem_map_of_mem hmem
  rw [hsent, hserial] at hmapped
  exact absurd hmapped (by decide)

end EventLoop

end Daemon
end SiliconOffice
