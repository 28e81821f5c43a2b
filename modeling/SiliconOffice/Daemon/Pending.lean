import SiliconOffice.Daemon.Moves

/-!
# What is still to be written, and to whom

A registry change waits in a scheduled `broadcast_diff` or among the sessions that the
reaper has still to announce (`waitingChanges`), then a broadcast of it is in flight.
`owed` is what the pending tasks of the daemon are going to write to one client.

* `Takes.frame`, `Takes.waiting` — beginning a broadcast only uses up its message;
* `Bounded` — stamps never run ahead of the changes made;
* `mem_waitingChanges_of_move`, `mem_inflight_of_move`, `written_of_move` — where what waits,
  is in flight or is written after a move comes from.
-/

namespace SiliconOffice
namespace Daemon

open Library Python Common

/-- The registry changes that scheduled diffs are about. -/
def scheduledChanges (scheduled : List Scheduled) : List Nat :=
  (scheduled.map Scheduled.tag).filterMap fun
    | .inl entry => some entry.1
    | .inr _ => none

/-- The connections whose handler has not started. -/
def handlers (scheduled : List Scheduled) : List Writer :=
  (scheduled.map Scheduled.tag).filterMap fun
    | .inl _ => none
    | .inr writer => some writer

section scheduled

variable {waiting scheduled rest : List Scheduled} {task : DiffTask} {writer : Writer}

theorem scheduledChanges_congr
    (h : waiting.map Scheduled.tag = scheduled.map Scheduled.tag) :
    scheduledChanges waiting = scheduledChanges scheduled := by
  rw [scheduledChanges, h, scheduledChanges]

theorem handlers_congr (h : waiting.map Scheduled.tag = scheduled.map Scheduled.tag) :
    handlers waiting = handlers scheduled := by
  rw [handlers, h, handlers]

@[simp] theorem scheduledChanges_nil : scheduledChanges [] = [] := rfl

@[simp] theorem handlers_nil : handlers [] = [] := rfl

@[simp] theorem scheduledChanges_diff :
    scheduledChanges (.diff task :: rest) = task.change :: scheduledChanges rest := rfl

@[simp] theorem scheduledChanges_handler :
    scheduledChanges (.handler writer :: rest) = scheduledChanges rest := rfl

@[simp] theorem handlers_diff : handlers (.diff task :: rest) = handlers rest := rfl

@[simp] theorem handlers_handler :
    handlers (.handler writer :: rest) = writer :: handlers rest := rfl

@[simp] theorem scheduledChanges_append (first second : List Scheduled) :
    scheduledChanges (first ++ second) = scheduledChanges first ++ scheduledChanges second := by
  simp [scheduledChanges]

@[simp] theorem handlers_append (first second : List Scheduled) :
    handlers (first ++ second) = handlers first ++ handlers second := by
  simp [handlers]

end scheduled

theorem mem_middle {α : Type} {x middle : α} {earlier later : List α} :
    x ∈ earlier ++ middle :: later ↔ x = middle ∨ x ∈ earlier ++ later := by
  simp only [List.mem_append, List.mem_cons]
  tauto

section suspended

variable {α : Type} {x middle : α} {items earlier later : List α}

theorem mem_of_suspended (suspended : items = earlier ++ middle :: later) : middle ∈ items := by
  rw [suspended]
  exact mem_middle.mpr (.inl rfl)

theorem mem_of_others (suspended : items = earlier ++ middle :: later)
    (h : x ∈ earlier ++ later) : x ∈ items := by
  rw [suspended]
  exact mem_middle.mpr (.inr h)

end suspended

/-- The stamp is about the first so many changes. -/
def Stamp.Within (changes : Nat) : Stamp → Prop
  | change index => index < changes
  | snapshot count => count ≤ changes

theorem Stamp.Within.mono {stamp : Stamp} {fewer more : Nat} (h : stamp.Within fewer)
    (hle : fewer ≤ more) : stamp.Within more := by
  cases stamp with
  | change index => exact Nat.lt_of_lt_of_le (show index < fewer from h) hle
  | snapshot count => exact Nat.le_trans (show count ≤ fewer from h) hle

namespace EventLoop

/-- The registry changes that nobody has begun to broadcast. -/
def waitingChanges (d : EventLoop) : List Nat :=
  scheduledChanges d.scheduled ++ d.announcing.map Prod.fst

/-- What the pending tasks are going to write to a client. -/
def owed (d : EventLoop) (writer : Writer) : List Stamp :=
  (if writer ∈ d.clients then d.waitingChanges.map .change else []) ++
    (d.inflight.filter fun broadcast => decide (writer ∈ broadcast.remaining)).map
      (·.message.stamp)

theorem mem_owed {d : EventLoop} {writer : Writer} {stamp : Stamp} :
    stamp ∈ d.owed writer ↔
      (writer ∈ d.clients ∧ ∃ index ∈ d.waitingChanges, stamp = .change index) ∨
        ∃ broadcast ∈ d.inflight, writer ∈ broadcast.remaining ∧
          stamp = broadcast.message.stamp := by
  unfold owed
  rw [List.mem_append]
  refine or_congr ?_ ?_
  · split <;> simp_all [eq_comm]
  · simp [and_assoc, eq_comm]

variable {floatText : PyFloat → String} {d source planned : EventLoop} {action : Action}
  {owner : Owner} {body : Json} {stamp : Stamp} {order : List Writer}
  {written : Option (Writer × Message)}

/-- What beginning a broadcast leaves alone. -/
structure Frame (d source : EventLoop) : Prop where
  registry : source.registry = d.registry
  clients : source.clients = d.clients
  inflight : source.inflight = d.inflight
  nextWriter : source.nextWriter = d.nextWriter
  sent : source.sent = d.sent
  broken : source.broken = d.broken
  changes : source.changes = d.changes
  joined : source.joined = d.joined
  begun : source.begun = d.begun
  handlers : handlers source.scheduled = Daemon.handlers d.scheduled

theorem Takes.frame (takes : Takes floatText d action owner body stamp order source) :
    Frame d source := by
  cases takes with
  | diff oldest => exact ⟨rfl, rfl, rfl, rfl, rfl, rfl, rfl, rfl, rfl, by rw [oldest]; rfl⟩
  | reaper next => exact ⟨rfl, rfl, rfl, rfl, rfl, rfl, rfl, rfl, rfl, rfl⟩
  | ticker => exact ⟨rfl, rfl, rfl, rfl, rfl, rfl, rfl, rfl, rfl, rfl⟩

/-- What still waits has waited before. -/
theorem Takes.subset (takes : Takes floatText d action owner body stamp order source) :
    source.scheduled ⊆ d.scheduled ∧ source.announcing ⊆ d.announcing := by
  cases takes with
  | diff oldest =>
      rw [oldest]
      exact ⟨List.subset_cons_self _ _, List.Subset.refl _⟩
  | reaper next =>
      rw [next]
      exact ⟨List.Subset.refl _, List.subset_cons_self _ _⟩
  | ticker => exact ⟨List.Subset.refl _, List.Subset.refl _⟩

/-- A diff uses up one waiting change, a snapshot none. -/
theorem Takes.waiting (takes : Takes floatText d action owner body stamp order source) :
    (∃ index, stamp = .change index ∧
        d.waitingChanges.Perm (index :: source.waitingChanges)) ∨
      stamp = .snapshot d.changes.length ∧ source.waitingChanges = d.waitingChanges := by
  cases takes with
  | @diff task rest order ts oldest =>
      refine .inl ⟨task.change, rfl, ?_⟩
      rw [waitingChanges, oldest]
      exact .refl _
  | @reaper index sid rest order ts next =>
      refine .inl ⟨index, rfl, ?_⟩
      rw [waitingChanges, next]
      exact List.perm_middle
  | ticker => exact .inr ⟨rfl, rfl⟩

/-- A new broadcast is of a change that was waiting, or a snapshot. -/
theorem Takes.stamped (takes : Takes floatText d action owner body stamp order source) :
    (∃ index ∈ d.waitingChanges, stamp = .change index) ∨
      stamp = .snapshot d.changes.length := by
  rcases takes.waiting with ⟨index, hstamp, hperm⟩ | ⟨hstamp, -⟩
  · exact .inl ⟨index, hperm.mem_iff.mpr List.mem_cons_self, hstamp⟩
  · exact .inr hstamp

/-! ## Moves and the changes made -/

/-- A move only ever adds changes. -/
theorem changes_of_move (move : Move floatText d action planned written) :
    ∃ news, planned.changes = d.changes ++ news := by
  cases move with
  | observed => exact ⟨_, rfl⟩
  | swept => exact ⟨_, rfl⟩
  | skipped takes => exact ⟨[], by rw [takes.frame.changes, List.append_nil]⟩
  | began takes => exact ⟨[], by rw [began, takes.frame.changes, List.append_nil]⟩
  | broke => exact ⟨[], (List.append_nil _).symm⟩
  | left => exact ⟨[], (List.append_nil _).symm⟩
  | accepted => exact ⟨[], (List.append_nil _).symm⟩
  | touched => exact ⟨[], (List.append_nil _).symm⟩
  | greeted => exact ⟨[], (List.append_nil _).symm⟩
  | advanced => exact ⟨[], (List.append_nil _).symm⟩
  | finished => exact ⟨[], (List.append_nil _).symm⟩

theorem changes_length_of_move (move : Move floatText d action planned written) :
    d.changes.length ≤ planned.changes.length := by
  obtain ⟨news, hnews⟩ := changes_of_move move
  rw [hnews, List.length_append]
  exact Nat.le_add_right _ _

/-- No move but the write after it changes what clients have been sent. -/
theorem sent_of_move (move : Move floatText d action planned written) :
    planned.sent = d.sent := by
  cases move with
  | skipped takes => exact takes.frame.sent
  | began takes => exact takes.frame.sent
  | observed => rfl
  | swept => rfl
  | broke => rfl
  | left => rfl
  | accepted => rfl
  | touched => rfl
  | greeted => rfl
  | advanced => rfl
  | finished => rfl

/-- The changes that wait after a move: new ones, or fewer. -/
theorem mem_waitingChanges_of_move (move : Move floatText d action planned written)
    {index : Nat} (h : index ∈ planned.waitingChanges) :
    index ∈ d.waitingChanges ∨ d.changes.length ≤ index ∧ index < planned.changes.length := by
  cases move with
  -- beginning a broadcast, with or without clients, takes one change off the waiting ones
  | skipped takes =>
      rcases takes.waiting with ⟨stamped, -, hperm⟩ | ⟨-, hsame⟩
      · exact .inl (hperm.mem_iff.mpr (List.mem_cons_of_mem _ h))
      · exact .inl (hsame ▸ h)
  | began takes =>
      rcases takes.waiting with ⟨stamped, -, hperm⟩ | ⟨-, hsame⟩
      · exact .inl (hperm.mem_iff.mpr (List.mem_cons_of_mem _ h))
      · exact .inl (hsame ▸ h)
  | touched sameTags =>
      rw [waitingChanges, scheduledChanges_congr sameTags] at h
      exact .inl h
  | observed sameTags newest =>
      rw [waitingChanges] at h
      dsimp only at h
      rw [scheduledChanges_append, scheduledChanges_congr sameTags, List.append_assoc,
        List.mem_append, List.mem_append] at h
      rcases h with hold | hnew | hann
      · exact .inl (List.mem_append_left _ hold)
      · right
        have hindex : index = d.changes.length := by
          rw [← newest]
          exact List.mem_singleton.mp hnew
        simp [hindex]
      · exact .inl (List.mem_append_right _ hann)
  | swept sameTags asleep =>
      rw [waitingChanges] at h
      dsimp only at h
      rw [scheduledChanges_congr sameTags, List.mem_append, List.map_map, List.mem_map] at h
      rcases h with hold | ⟨item, hitem, rfl⟩
      · exact .inl (List.mem_append_left _ hold)
      · right
        -- the sessions dropped are numbered from the changes made so far on
        have hlt := List.snd_lt_of_mem_zipIdx hitem
        simp only [Function.comp_apply, List.length_append, List.length_map]
        omega
  | accepted =>
      rw [waitingChanges] at h
      dsimp only at h
      rw [scheduledChanges_append, scheduledChanges_handler, scheduledChanges_nil,
        List.append_nil] at h
      exact .inl h
  | greeted oldest =>
      left
      rw [waitingChanges, oldest]
      exact h
  | broke => exact .inl h
  | left => exact .inl h
  | advanced => exact .inl h
  | finished => exact .inl h

/-- A broadcast in flight after a move was in flight before, with no fewer clients to go,
or has just begun. -/
theorem mem_inflight_of_move (move : Move floatText d action planned written)
    {broadcast : Broadcast} (h : broadcast ∈ planned.inflight) :
    (∃ before ∈ d.inflight, broadcast.message = before.message ∧
        broadcast.remaining ⊆ before.remaining) ∨
      ∃ owner body stamp first source,
        Takes floatText d action owner body stamp (first :: broadcast.remaining) source ∧
          (first :: broadcast.remaining).Perm d.clients ∧
          broadcast.message = ⟨body, stamp, some d.begun.length⟩ := by
  have hold : broadcast ∈ d.inflight → ∃ before ∈ d.inflight,
      broadcast.message = before.message ∧ broadcast.remaining ⊆ before.remaining :=
    fun hmem => ⟨broadcast, hmem, rfl, List.Subset.refl _⟩
  cases move with
  | skipped takes => exact .inl (hold (takes.frame.inflight ▸ h))
  | @began action owner body stamp first rest source takes order =>
      rw [began] at h
      dsimp only at h
      rw [takes.frame.inflight, List.mem_append, List.mem_singleton] at h
      rcases h with hmem | rfl
      · exact .inl (hold hmem)
      · exact .inr ⟨owner, body, stamp, first, source, takes, order, rfl⟩
  | @advanced _ _ _ suspendedIn _ _ suspended remaining =>
      rw [suspended] at hold ⊢
      left
      rcases mem_middle.mp h with rfl | hother
      · refine ⟨suspendedIn, mem_middle.mpr (.inl rfl), rfl, ?_⟩
        rw [remaining]
        exact List.subset_cons_self _ _
      · exact hold (mem_middle.mpr (.inr hother))
  | finished suspended remaining =>
      rw [suspended] at hold ⊢
      exact .inl (hold (mem_middle.mpr (.inr h)))
  | broke => exact .inl (hold h)
  | left => exact .inl (hold h)
  | accepted => exact .inl (hold h)
  | touched => exact .inl (hold h)
  | observed => exact .inl (hold h)
  | swept => exact .inl (hold h)
  | greeted => exact .inl (hold h)

/-- What a move ends with writing is the message of a broadcast that goes on, of one that
begins, or a greeting. -/
theorem written_of_move {writer : Writer} {message : Message}
    (move : Move floatText d action planned (some (writer, message))) :
    (∃ before ∈ d.inflight, writer ∈ before.remaining ∧ message = before.message) ∨
      (∃ owner body stamp rest source,
        Takes floatText d action owner body stamp (writer :: rest) source ∧
          (writer :: rest).Perm d.clients ∧ message = ⟨body, stamp, some d.begun.length⟩) ∨
      ∃ rest ts, (d.scheduled = .handler writer :: rest ∧ ∃ order, action = .start order ts) ∧
        message =
          ⟨makeSnapshotMessage floatText d.registry.agents ts, .snapshot d.changes.length,
            none⟩ := by
  generalize hwritten : some (writer, message) = written at move
  cases move with
  | @greeted order ts _ rest oldest =>
      cases hwritten
      exact .inr (.inr ⟨rest, ts, ⟨oldest, order, rfl⟩, rfl⟩)
  | @began action owner body stamp first rest source takes order =>
      cases hwritten
      exact .inr (.inl ⟨owner, body, stamp, rest, source, takes, order, rfl⟩)
  | @advanced _ _ _ suspendedIn _ _ suspended remaining =>
      cases hwritten
      refine .inl ⟨suspendedIn, ?_, ?_, rfl⟩
      · rw [suspended]
        exact List.mem_append_right _ List.mem_cons_self
      · rw [remaining]
        exact List.mem_cons_self
  | broke => cases hwritten
  | left => cases hwritten
  | accepted => cases hwritten
  | touched => cases hwritten
  | observed => cases hwritten
  | swept => cases hwritten
  | skipped => cases hwritten
  | finished => cases hwritten

/-- What is written was owed to the client, or is a snapshot. -/
theorem stamp_of_written {writer : Writer} {message : Message}
    (move : Move floatText d action planned (some (writer, message))) :
    message.stamp ∈ d.owed writer ∨ message.stamp = .snapshot d.changes.length := by
  rcases written_of_move move with ⟨before, hbefore, hwriter, rfl⟩ |
    ⟨owner, body, stamp, rest, source, takes, order, rfl⟩ | ⟨rest, ts, -, rfl⟩
  · exact .inl (mem_owed.mpr (.inr ⟨before, hbefore, hwriter, rfl⟩))
  · rcases takes.stamped with ⟨index, hindex, hstamp⟩ | hstamp
    · exact .inl (mem_owed.mpr
        (.inl ⟨order.mem_iff.mp List.mem_cons_self, index, hindex, hstamp⟩))
    · exact .inr hstamp
  · exact .inr rfl

/-! ## Writing -/

theorem sent_write (writer other : Writer) (message : Message) :
    (d.write writer message).sent other =
      if d.broken writer = false ∧ other = writer then d.sent other ++ [message]
      else d.sent other := by
  unfold write
  cases hbroken : d.broken writer with
  | true => simp
  | false =>
      by_cases hother : other = writer
      · subst hother
        simp
      · simp [hother]

/-- A message that a client has been sent after a write, and not before, is the one
written. -/
theorem mem_sent_deliver {message : Message} {other : Writer}
    (h : message ∈ (deliver (d, written)).sent other) :
    message ∈ d.sent other ∨ written = some (other, message) := by
  cases written with
  | none => exact .inl h
  | some entry =>
      obtain ⟨writer, last⟩ := entry
      rw [deliver, sent_write] at h
      split at h
      · rename_i hsame
        rcases List.mem_append.mp h with hold | hnew
        · exact .inl hold
        · rw [List.mem_singleton.mp hnew, hsame.2]
          exact .inr rfl
      · exact .inl h

/-- A write leaves everything but the logs of the clients. -/
structure SameButSent (d after : EventLoop) : Prop where
  registry : after.registry = d.registry
  clients : after.clients = d.clients
  scheduled : after.scheduled = d.scheduled
  inflight : after.inflight = d.inflight
  announcing : after.announcing = d.announcing
  nextWriter : after.nextWriter = d.nextWriter
  broken : after.broken = d.broken
  changes : after.changes = d.changes
  joined : after.joined = d.joined
  begun : after.begun = d.begun

theorem sameButSent_deliver (d : EventLoop) (written : Option (Writer × Message)) :
    SameButSent d (deliver (d, written)) := by
  cases written with
  | none => exact ⟨rfl, rfl, rfl, rfl, rfl, rfl, rfl, rfl, rfl, rfl⟩
  | some entry =>
      unfold deliver write
      dsimp only
      split <;> exact ⟨rfl, rfl, rfl, rfl, rfl, rfl, rfl, rfl, rfl, rfl⟩

theorem SameButSent.waitingChanges {after : EventLoop} (h : SameButSent d after) :
    after.waitingChanges = d.waitingChanges := by
  rw [EventLoop.waitingChanges, h.scheduled, h.announcing, EventLoop.waitingChanges]

theorem SameButSent.owed {after : EventLoop} (h : SameButSent d after) (writer : Writer) :
    after.owed writer = d.owed writer := by
  rw [EventLoop.owed, h.clients, h.waitingChanges, h.inflight, EventLoop.owed]

/-! ## Stamps never run ahead -/

/-- Every stamp is about changes that have been made. -/
structure Bounded (d : EventLoop) : Prop where
  waiting : ∀ index ∈ d.waitingChanges, index < d.changes.length
  inflight : ∀ broadcast ∈ d.inflight, broadcast.message.stamp.Within d.changes.length
  sent : ∀ writer, ∀ message ∈ d.sent writer, message.stamp.Within d.changes.length

theorem Bounded.owed (h : Bounded d) {writer : Writer} (hstamp : stamp ∈ d.owed writer) :
    stamp.Within d.changes.length := by
  rcases mem_owed.mp hstamp with ⟨-, index, hindex, rfl⟩ | ⟨broadcast, hmem, -, rfl⟩
  · exact h.waiting index hindex
  · exact h.inflight broadcast hmem

theorem bounded_of_move (h : Bounded d) (move : Move floatText d action planned written) :
    Bounded (deliver (planned, written)) := by
  have hsame := sameButSent_deliver planned written
  have hgrows := changes_length_of_move move
  refine ⟨fun index hindex => ?_, fun broadcast hmem => ?_, fun writer message hmem => ?_⟩
  · rw [hsame.waitingChanges] at hindex
    rw [hsame.changes]
    rcases mem_waitingChanges_of_move move hindex with hold | ⟨-, hnew⟩
    · exact Nat.lt_of_lt_of_le (h.waiting index hold) hgrows
    · exact hnew
  · rw [hsame.inflight] at hmem
    rw [hsame.changes]
    refine Stamp.Within.mono ?_ hgrows
    rcases mem_inflight_of_move move hmem with ⟨before, hbefore, hmessage, -⟩ |
      ⟨owner, body, stamp, first, source, takes, -, hmessage⟩
    · rw [hmessage]
      exact h.inflight before hbefore
    · rw [hmessage]
      rcases takes.stamped with ⟨index, hindex, rfl⟩ | rfl
      · exact h.waiting index hindex
      · exact Nat.le_refl _
  · rw [hsame.changes]
    refine Stamp.Within.mono ?_ hgrows
    rcases mem_sent_deliver hmem with hold | rfl
    · rw [sent_of_move move] at hold
      exact h.sent writer message hold
    · rcases stamp_of_written move with howed | hstamp
      · exact h.owed howed
      · rw [hstamp]
        exact Nat.le_refl _

/-- A daemon that nobody has connected to. -/
def fresh (registry : SessionRegistry) : EventLoop := { registry := registry }

theorem bounded_fresh (registry : SessionRegistry) : Bounded (fresh registry) where
  waiting _ h := absurd h List.not_mem_nil
  inflight _ h := absurd h List.not_mem_nil
  sent _ _ h := absurd h List.not_mem_nil

end EventLoop

end Daemon
end SiliconOffice
