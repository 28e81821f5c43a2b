import SiliconOffice.Daemon.Pending

/-!
# Clients before and after their greeting

A connection is numbered, its handler is scheduled, and only when the handler starts does
the client join the set and get its first message.  `Coherent` says that until then the
client takes part in nothing, which makes the greeting the first message it is written.
-/

namespace SiliconOffice
namespace Daemon

open Library Python Common

namespace EventLoop

variable {floatText : PyFloat → String} {d planned : EventLoop} {action : Action}
  {written : Option (Writer × Message)}

/-- The connection has not been made or its handler has not started. -/
def Ungreeted (d : EventLoop) (writer : Writer) : Prop :=
  writer ∈ handlers d.scheduled ∨ d.nextWriter ≤ writer

/-- Before its greeting a client takes part in nothing. -/
structure Coherent (d : EventLoop) : Prop where
  clients : d.clients.Nodup
  handlers : (handlers d.scheduled).Nodup
  known : ∀ writer ∈ Daemon.handlers d.scheduled, writer < d.nextWriter
  unregistered : ∀ writer, d.Ungreeted writer → writer ∉ d.clients
  idle : ∀ writer, d.Ungreeted writer → ∀ broadcast ∈ d.inflight, writer ∉ broadcast.remaining
  silent : ∀ writer, d.Ungreeted writer → d.sent writer = []

theorem handlers_of_move (h : Coherent d) (move : Move floatText d action planned written) :
    (handlers planned.scheduled).Nodup ∧
      ∀ writer ∈ handlers planned.scheduled, writer < planned.nextWriter := by
  cases move with
  | accepted =>
      dsimp only
      rw [handlers_append, handlers_handler, handlers_nil]
      refine ⟨List.nodup_append.mpr ⟨h.handlers, List.pairwise_singleton _ _, ?_⟩, ?_⟩
      · rintro writer hwriter _ hnext rfl
        rw [List.mem_singleton.mp hnext] at hwriter
        exact absurd (h.known _ hwriter) (Nat.lt_irrefl _)
      · intro writer hwriter
        rcases List.mem_append.mp hwriter with hold | hnew
        · exact Nat.lt_succ_of_lt (h.known writer hold)
        · rw [List.mem_singleton.mp hnew]
          exact Nat.lt_succ_self _
  | touched sameTags =>
      dsimp only
      rw [handlers_congr sameTags]
      exact ⟨h.handlers, h.known⟩
  | observed sameTags =>
      dsimp only
      rw [handlers_append, handlers_diff, handlers_nil, List.append_nil,
        handlers_congr sameTags]
      exact ⟨h.handlers, h.known⟩
  | swept sameTags =>
      dsimp only
      rw [handlers_congr sameTags]
      exact ⟨h.handlers, h.known⟩
  | greeted oldest =>
      have hhandlers := h.handlers
      have hknown := h.known
      rw [oldest, handlers_handler] at hhandlers hknown
      exact ⟨hhandlers.of_cons, fun writer hwriter =>
        hknown writer (List.mem_cons_of_mem _ hwriter)⟩
  | skipped takes =>
      rw [takes.frame.handlers, takes.frame.nextWriter]
      exact ⟨h.handlers, h.known⟩
  | began takes =>
      rw [began]
      dsimp only
      rw [takes.frame.handlers, takes.frame.nextWriter]
      exact ⟨h.handlers, h.known⟩
  | broke => exact ⟨h.handlers, h.known⟩
  | left => exact ⟨h.handlers, h.known⟩
  | advanced => exact ⟨h.handlers, h.known⟩
  | finished => exact ⟨h.handlers, h.known⟩

theorem ungreeted_of_move (h : Coherent d) (move : Move floatText d action planned written)
    {writer : Writer} (hwriter : planned.Ungreeted writer) :
    d.Ungreeted writer ∧ writer ∉ planned.clients := by
  unfold Ungreeted at hwriter
  cases move with
  | accepted =>
      dsimp only at hwriter
      rw [handlers_append, handlers_handler, handlers_nil, List.mem_append,
        List.mem_singleton] at hwriter
      have hbefore : d.Ungreeted writer := by
        rcases hwriter with (hold | rfl) | hlater
        · exact .inl hold
        · exact .inr (Nat.le_refl _)
        · exact .inr (Nat.le_of_succ_le hlater)
      exact ⟨hbefore, h.unregistered writer hbefore⟩
  | touched sameTags =>
      rw [handlers_congr sameTags] at hwriter
      exact ⟨hwriter, h.unregistered writer hwriter⟩
  | observed sameTags =>
      rw [handlers_append, handlers_diff, handlers_nil, List.append_nil,
        handlers_congr sameTags] at hwriter
      exact ⟨hwriter, h.unregistered writer hwriter⟩
  | swept sameTags =>
      rw [handlers_congr sameTags] at hwriter
      exact ⟨hwriter, h.unregistered writer hwriter⟩
  | @greeted order ts greetedWriter rest oldest =>
      have hhandlers := h.handlers
      have hknown := h.known
      rw [oldest, handlers_handler] at hhandlers hknown
      have hbefore : d.Ungreeted writer := by
        unfold Ungreeted
        rw [oldest, handlers_handler]
        exact hwriter.imp_left (List.mem_cons_of_mem _)
      refine ⟨hbefore, fun hmem => ?_⟩
      rcases List.mem_append.mp hmem with hold | hnew
      · exact h.unregistered writer hbefore hold
      · -- the greeted client is neither waiting nor to come
        rw [List.mem_singleton.mp hnew] at hwriter
        rcases hwriter with hwaiting | hlater
        · exact (List.nodup_cons.mp hhandlers).1 hwaiting
        · exact absurd (hknown greetedWriter List.mem_cons_self) (Nat.not_lt.mpr hlater)
  | skipped takes =>
      rw [takes.frame.handlers, takes.frame.nextWriter] at hwriter
      rw [takes.frame.clients]
      exact ⟨hwriter, h.unregistered writer hwriter⟩
  | began takes =>
      rw [began] at hwriter ⊢
      dsimp only at hwriter ⊢
      rw [takes.frame.handlers, takes.frame.nextWriter] at hwriter
      rw [takes.frame.clients]
      exact ⟨hwriter, h.unregistered writer hwriter⟩
  | broke => exact ⟨hwriter, h.unregistered writer hwriter⟩
  | left =>
      exact ⟨hwriter, fun hmem => h.unregistered writer hwriter (List.mem_of_mem_erase hmem)⟩
  | advanced => exact ⟨hwriter, h.unregistered writer hwriter⟩
  | finished =>
      exact ⟨hwriter, fun hmem => h.unregistered writer hwriter (List.mem_filter.mp hmem).1⟩

theorem clients_nodup_of_move (h : Coherent d)
    (move : Move floatText d action planned written) : planned.clients.Nodup := by
  cases move with
  | @greeted order ts writer rest oldest =>
      refine List.nodup_append.mpr ⟨h.clients, List.pairwise_singleton _ _, ?_⟩
      rintro client hclient _ hnew rfl
      refine h.unregistered client (.inl ?_) hclient
      rw [List.mem_singleton.mp hnew, oldest, handlers_handler]
      exact List.mem_cons_self
  | skipped takes => exact takes.frame.clients ▸ h.clients
  | began takes => exact takes.frame.clients ▸ h.clients
  | left => exact h.clients.erase _
  | finished => exact h.clients.filter _
  | broke => exact h.clients
  | accepted => exact h.clients
  | touched => exact h.clients
  | observed => exact h.clients
  | swept => exact h.clients
  | advanced => exact h.clients

/-- Only clients that have been greeted are written to, the greeting included. -/
theorem not_ungreeted_of_written (h : Coherent d) {writer : Writer} {message : Message}
    (move : Move floatText d action planned (some (writer, message))) :
    ¬ planned.Ungreeted writer := by
  intro hwriter
  obtain ⟨hbefore, hunregistered⟩ := ungreeted_of_move h move hwriter
  generalize hwritten : some (writer, message) = written at move
  cases move with
  | greeted =>
      cases hwritten
      exact hunregistered (List.mem_append_right _ List.mem_cons_self)
  | began takes order =>
      cases hwritten
      exact h.unregistered _ hbefore (order.mem_iff.mp List.mem_cons_self)
  | advanced suspended remaining =>
      cases hwritten
      refine h.idle _ hbefore _ ?_ (remaining ▸ List.mem_cons_self)
      rw [suspended]
      exact List.mem_append_right _ List.mem_cons_self
  | broke => cases hwritten
  | left => cases hwritten
  | accepted => cases hwritten
  | touched => cases hwritten
  | observed => cases hwritten
  | swept => cases hwritten
  | skipped => cases hwritten
  | finished => cases hwritten

theorem coherent_of_move (h : Coherent d) (move : Move floatText d action planned written) :
    Coherent (deliver (planned, written)) := by
  have hsame := sameButSent_deliver planned written
  have hungreeted : ∀ writer, (deliver (planned, written)).Ungreeted writer →
      planned.Ungreeted writer := fun writer hwriter => by
    rw [Ungreeted, hsame.scheduled, hsame.nextWriter] at hwriter
    exact hwriter
  obtain ⟨hhandlers, hknown⟩ := handlers_of_move h move
  constructor
  case clients =>
    rw [hsame.clients]
    exact clients_nodup_of_move h move
  case handlers =>
    rw [hsame.scheduled]
    exact hhandlers
  case known =>
    rw [hsame.scheduled, hsame.nextWriter]
    exact hknown
  case unregistered =>
    intro writer hwriter
    rw [hsame.clients]
    exact (ungreeted_of_move h move (hungreeted writer hwriter)).2
  case idle =>
    intro writer hwriter broadcast hmem hremaining
    have hbefore := (ungreeted_of_move h move (hungreeted writer hwriter)).1
    rw [hsame.inflight] at hmem
    rcases mem_inflight_of_move move hmem with ⟨before, hinflight, -, hsubset⟩ |
      ⟨_, _, _, _, _, _, order, _⟩
    · exact h.idle writer hbefore before hinflight (hsubset hremaining)
    · exact h.unregistered writer hbefore
        (order.mem_iff.mp (List.mem_cons_of_mem _ hremaining))
  case silent =>
    intro writer hwriter
    have hbefore := (ungreeted_of_move h move (hungreeted writer hwriter)).1
    rw [List.eq_nil_iff_forall_not_mem]
    intro message hmem
    rcases mem_sent_deliver hmem with hold | rfl
    · rw [sent_of_move move, h.silent writer hbefore] at hold
      exact absurd hold List.not_mem_nil
    · exact not_ungreeted_of_written h move (hungreeted writer hwriter)

theorem coherent_fresh (registry : SessionRegistry) : Coherent (fresh registry) where
  clients := List.nodup_nil
  handlers := List.nodup_nil
  known _ h := absurd h List.not_mem_nil
  unregistered _ _ := List.not_mem_nil
  idle _ _ _ h := absurd h List.not_mem_nil
  silent _ _ := rfl

/-! ## The greeting is the first message -/

/-- The client has been sent its greeting, or its socket was dead already. -/
def Greeted (d : EventLoop) (writer : Writer) : Prop :=
  d.sent writer ≠ [] ∨ d.broken writer = true

/-- Whoever is written to, or going to be, has been greeted, and so has everyone whose handler
has started. -/
structure AllGreeted (d : EventLoop) : Prop where
  everyone : ∀ writer, ¬ d.Ungreeted writer → d.Greeted writer
  clients : ∀ writer ∈ d.clients, d.Greeted writer
  inflight : ∀ broadcast ∈ d.inflight, ∀ writer ∈ broadcast.remaining, d.Greeted writer

theorem broken_of_move (move : Move floatText d action planned written) {writer : Writer}
    (h : d.broken writer = true) : planned.broken writer = true := by
  cases move with
  | @broke target =>
      by_cases hsame : writer = target
      · subst hsame
        exact Function.update_self ..
      · exact (Function.update_of_ne hsame _ _).trans h
  | @left target =>
      by_cases hsame : writer = target
      · subst hsame
        exact Function.update_self ..
      · exact (Function.update_of_ne hsame _ _).trans h
  | skipped takes => exact takes.frame.broken ▸ h
  | began takes => exact takes.frame.broken ▸ h
  | accepted => exact h
  | touched => exact h
  | observed => exact h
  | swept => exact h
  | greeted => exact h
  | advanced => exact h
  | finished => exact h

theorem sent_ne_nil_of_move (move : Move floatText d action planned written) {writer : Writer}
    (h : d.sent writer ≠ []) : (deliver (planned, written)).sent writer ≠ [] := by
  rw [← sent_of_move move] at h
  cases written with
  | none => exact h
  | some entry =>
      rw [deliver, sent_write]
      split
      · exact List.append_ne_nil_of_left_ne_nil h _
      · exact h

theorem Greeted.of_move {writer : Writer} (h : d.Greeted writer)
    (move : Move floatText d action planned written) :
    (deliver (planned, written)).Greeted writer := by
  rcases h with hsent | hbroken
  · exact .inl (sent_ne_nil_of_move move hsent)
  · right
    rw [(sameButSent_deliver planned written).broken]
    exact broken_of_move move hbroken

/-- The client that a handler registers is written its greeting in the same step. -/
theorem greeted_deliver {writer : Writer} {message : Message} :
    (deliver (d, some (writer, message))).Greeted writer := by
  rw [Greeted, (sameButSent_deliver _ _).broken, deliver, sent_write]
  cases hbroken : d.broken writer with
  | true => exact .inr rfl
  | false => simp

/-- Nobody comes to an end of the waiting but by a greeting. -/
theorem greeted_of_ungreeted (move : Move floatText d action planned written) {writer : Writer}
    (hbefore : d.Ungreeted writer) (hafter : ¬ planned.Ungreeted writer) :
    (deliver (planned, written)).Greeted writer := by
  unfold Ungreeted at hbefore hafter
  cases move with
  | accepted =>
      refine absurd ?_ hafter
      dsimp only
      rw [handlers_append, handlers_handler, handlers_nil, List.mem_append, List.mem_singleton]
      rcases hbefore with hwaiting | hlater
      · exact .inl (.inl hwaiting)
      · rcases Nat.eq_or_lt_of_le hlater with hnext | hlater
        · exact .inl (.inr hnext.symm)
        · exact .inr hlater
  | touched sameTags =>
      rw [handlers_congr sameTags] at hafter
      exact absurd hbefore hafter
  | observed sameTags =>
      rw [handlers_append, handlers_diff, handlers_nil, List.append_nil,
        handlers_congr sameTags] at hafter
      exact absurd hbefore hafter
  | swept sameTags =>
      rw [handlers_congr sameTags] at hafter
      exact absurd hbefore hafter
  | @greeted order ts greetedWriter rest oldest =>
      rw [oldest, handlers_handler] at hbefore
      rcases hbefore with hwaiting | hlater
      · rcases List.mem_cons.mp hwaiting with rfl | hrest
        · exact greeted_deliver
        · exact absurd (.inl hrest) hafter
      · exact absurd (.inr hlater) hafter
  | skipped takes =>
      rw [takes.frame.handlers, takes.frame.nextWriter] at hafter
      exact absurd hbefore hafter
  | began takes =>
      rw [began] at hafter
      dsimp only at hafter
      rw [takes.frame.handlers, takes.frame.nextWriter] at hafter
      exact absurd hbefore hafter
  | broke => exact absurd hbefore hafter
  | left => exact absurd hbefore hafter
  | advanced => exact absurd hbefore hafter
  | finished => exact absurd hbefore hafter

theorem allGreeted_of_move (h : AllGreeted d) (move : Move floatText d action planned written) :
    AllGreeted (deliver (planned, written)) := by
  have hsame := sameButSent_deliver planned written
  refine ⟨fun writer hstarted => ?_, fun writer hclient => ?_,
    fun broadcast hmem writer hwriter => ?_⟩
  · rw [Ungreeted, hsame.scheduled, hsame.nextWriter] at hstarted
    by_cases hbefore : d.Ungreeted writer
    · exact greeted_of_ungreeted move hbefore hstarted
    · exact (h.everyone writer hbefore).of_move move
  · rw [hsame.clients] at hclient
    have hold : writer ∈ d.clients → (deliver (planned, written)).Greeted writer :=
      fun hregistered => (h.clients writer hregistered).of_move move
    cases move with
    | greeted =>
        rcases List.mem_append.mp hclient with hregistered | hnew
        · exact hold hregistered
        · rw [List.mem_singleton.mp hnew]
          exact greeted_deliver
    | skipped takes => exact hold (takes.frame.clients ▸ hclient)
    | began takes => exact hold (takes.frame.clients ▸ hclient)
    | left => exact hold (List.mem_of_mem_erase hclient)
    | finished => exact hold (List.mem_filter.mp hclient).1
    | broke => exact hold hclient
    | accepted => exact hold hclient
    | touched => exact hold hclient
    | observed => exact hold hclient
    | swept => exact hold hclient
    | advanced => exact hold hclient
  · rw [hsame.inflight] at hmem
    rcases mem_inflight_of_move move hmem with ⟨before, hbefore, -, hsubset⟩ |
      ⟨_, _, _, _, _, _, order, _⟩
    · exact (h.inflight before hbefore writer (hsubset hwriter)).of_move move
    · exact (h.clients writer
        (order.mem_iff.mp (List.mem_cons_of_mem _ hwriter))).of_move move

/-- **The first message written to a client is a snapshot of the registry as it is.** -/
theorem first_write (h : AllGreeted d) (move : Move floatText d action planned written)
    {writer : Writer} (hbefore : d.sent writer = [])
    (hafter : (deliver (planned, written)).sent writer ≠ []) :
    ∃ ts, (deliver (planned, written)).sent writer =
      [⟨makeSnapshotMessage floatText d.registry.agents ts, .snapshot d.changes.length, none⟩] := by
  have hsilent : planned.sent writer = [] := by
    rw [sent_of_move move]
    exact hbefore
  cases written with
  | none => exact absurd hsilent hafter
  | some entry =>
      obtain ⟨target, message⟩ := entry
      rw [deliver, sent_write] at hafter ⊢
      split at hafter
      · rename_i htarget
        obtain ⟨hhealthy, rfl⟩ := htarget
        rw [if_pos ⟨hhealthy, rfl⟩, hsilent]
        have hungreeted : ¬ d.Greeted writer := by
          rintro (hsent | hbroken)
          · exact hsent hbefore
          · rw [broken_of_move move hbroken] at hhealthy
            cases hhealthy
        rcases written_of_move move with ⟨before, hinflight, hwriter, -⟩ |
          ⟨_, _, _, _, _, _, order, _⟩ | ⟨-, ts, -, rfl⟩
        · exact absurd (h.inflight before hinflight writer hwriter) hungreeted
        · exact absurd (h.clients writer (order.mem_iff.mp List.mem_cons_self)) hungreeted
        · exact ⟨ts, rfl⟩
      · exact absurd hsilent hafter

theorem allGreeted_fresh (registry : SessionRegistry) : AllGreeted (fresh registry) where
  everyone writer h := absurd (.inr (Nat.zero_le writer)) h
  clients _ h := absurd h List.not_mem_nil
  inflight _ h := absurd h List.not_mem_nil

end EventLoop

end Daemon
end SiliconOffice
