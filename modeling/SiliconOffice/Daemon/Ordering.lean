import SiliconOffice.Daemon.Clients
import SiliconOffice.Library.Runs

/-!
# Per-client ordering of updates

A message shows, for a session, the version of the session that it was built from: the
number of the registry change, or for a snapshot that of the last change made by then.
A client's log is ordered when no later message shows an older version of a session.

Nothing in the broadcaster keeps broadcasts of one session apart.  A step is `inTurn`
unless it begins a message while something from before a change that the message tells of
is pending, about the session of that change and for a client that the message is for.
When every message is begun in its turn the logs are ordered, in whatever order the drains
return (`inOrder_of_run`); `reaper_overtaken` is a run of the code where the reaper's
announcement of a removal arrives after the session has come back.
-/

namespace SiliconOffice
namespace Daemon

open Library Python Common

/-! ## Versions -/

/-- The number of the last change of a session, counted from one; zero when there is none. -/
def latest (session : DictKey) : List Change → Nat
  | [] => 0
  | change :: rest =>
      if latest session rest = 0 then (if change.key == session then 1 else 0)
      else latest session rest + 1

theorem latest_le_length (session : DictKey) (changes : List Change) :
    latest session changes ≤ changes.length := by
  induction changes with
  | nil => exact Nat.le_refl 0
  | cons change rest ih =>
      rw [latest, List.length_cons]
      split
      · split <;> omega
      · omega

theorem le_latest {session : DictKey} {changes : List Change} {index : Nat} {change : Change}
    (hchange : changes[index]? = some change) (hsession : (change.key == session) = true) :
    index + 1 ≤ latest session changes := by
  induction changes generalizing index with
  | nil => cases hchange
  | cons head rest ih =>
      rw [latest]
      cases index with
      | zero =>
          cases hchange
          rw [if_pos hsession]
          split <;> omega
      | succ index =>
          have hrest := ih (show rest[index]? = some change from hchange)
          rw [if_neg (by omega)]
          omega

theorem latest_le_append (session : DictKey) (changes news : List Change) :
    latest session changes ≤ latest session (changes ++ news) := by
  induction changes with
  | nil => exact Nat.zero_le _
  | cons head rest ih =>
      rw [List.cons_append, latest, latest]
      split <;> split <;> (try split) <;> omega

/-- The version of a session that a message with this stamp shows, if it is about it. -/
def Stamp.version (changes : List Change) (session : DictKey) : Stamp → Option Nat
  | change index =>
      changes[index]?.bind fun entry => if entry.key == session then some (index + 1) else none
  | snapshot count => some (latest session (changes.take count))

/-- The first stamp shows an older version of some session than the second. -/
def Stamp.Older (changes : List Change) (first second : Stamp) : Prop :=
  ∃ session older newer, first.version changes session = some older ∧
    second.version changes session = some newer ∧ older < newer

/-- Later changes do not alter what a stamp shows. -/
theorem Stamp.version_append {stamp : Stamp} {changes : List Change}
    (h : stamp.Within changes.length) (news : List Change) (session : DictKey) :
    stamp.version (changes ++ news) session = stamp.version changes session := by
  cases stamp with
  | change index =>
      rw [version, version, List.getElem?_append_left (show index < changes.length from h)]
  | snapshot count =>
      rw [version, version, List.take_append_of_le_length (show count ≤ changes.length from h)]

theorem Stamp.older_append_iff {first second : Stamp} {changes : List Change}
    (hfirst : first.Within changes.length) (hsecond : second.Within changes.length)
    (news : List Change) :
    first.Older (changes ++ news) second ↔ first.Older changes second := by
  unfold Older
  simp only [version_append hfirst, version_append hsecond]

/-- What a stamp shows is at most the latest version. -/
theorem Stamp.version_le_latest {stamp : Stamp} {changes : List Change} {session : DictKey}
    {version : Nat} (h : stamp.version changes session = some version) :
    version ≤ latest session changes := by
  cases stamp with
  | change index =>
      obtain ⟨entry, hentry, hversion⟩ := Option.bind_eq_some_iff.mp h
      split at hversion
      · rename_i hsession
        cases hversion
        exact le_latest hentry hsession
      · cases hversion
  | snapshot count =>
      cases h
      calc latest session (changes.take count)
          ≤ latest session (changes.take count ++ changes.drop count) := latest_le_append ..
        _ = latest session changes := by rw [List.take_append_drop]

/-- The stamp of a change that has just been made, or of a snapshot taken right now. -/
def Stamp.News (changes : Nat) : Stamp → Prop
  | change index => changes ≤ index
  | snapshot count => count = changes

/-- News is never older than what was there before. -/
theorem Stamp.News.not_older {stamp other : Stamp} {changes : List Change}
    (hnews : stamp.News changes.length) (hother : other.Within changes.length)
    (news : List Change) : ¬ stamp.Older (changes ++ news) other := by
  rintro ⟨session, older, newer, hstamp, hnewer, hlt⟩
  rw [version_append hother] at hnewer
  have hle := version_le_latest hnewer
  cases stamp with
  | change index =>
      have hindex : changes.length ≤ index := hnews
      have hlength := latest_le_length session changes
      obtain ⟨entry, -, hversion⟩ := Option.bind_eq_some_iff.mp hstamp
      split at hversion
      · cases hversion
        omega
      · cases hversion
  | snapshot count =>
      have hcount : count = changes.length := hnews
      subst hcount
      rw [version, List.take_left' rfl] at hstamp
      cases hstamp
      omega

/-! ## What a message tells of -/

/-- The changes that a message tells of: a diff of its own, a snapshot of all made so far. -/
def Stamp.tells : Stamp → List Nat
  | change index => [index]
  | snapshot count => List.range count

/-- Two changes are of one session. -/
def sameSession (changes : List Change) (first second : Nat) : Bool :=
  match changes[first]?, changes[second]? with
  | some one, some other => one.key == other.key
  | _, _ => false

/-- The stamp dates the session of a change back to before that change. -/
def Stamp.predates (changes : List Change) (index : Nat) : Stamp → Bool
  | change earlier => decide (earlier < index) && sameSession changes earlier index
  | snapshot count => decide (count ≤ index)

/-- The latest version of a session, if it has one, is that of one of its changes. -/
theorem getElem?_of_latest {session : DictKey} {changes : List Change} {index : Nat}
    (h : latest session changes = index + 1) :
    ∃ change, changes[index]? = some change ∧ (change.key == session) = true := by
  induction changes generalizing index with
  | nil => cases h
  | cons head rest ih =>
      rw [latest] at h
      split at h
      · split at h
        · rename_i hsession
          cases h
          exact ⟨head, rfl, hsession⟩
        · cases h
      · cases hindex : index with
        | zero => omega
        | succ before =>
            rw [List.getElem?_cons_succ]
            exact ih (by omega)

/-- A version that a stamp shows is zero or that of a change which the stamp tells of. -/
theorem Stamp.told_of_version {stamp : Stamp} {changes : List Change} {session : DictKey}
    {index : Nat} (h : stamp.version changes session = some (index + 1)) :
    index ∈ stamp.tells ∧
      ∃ entry, changes[index]? = some entry ∧ (entry.key == session) = true := by
  cases stamp with
  | change own =>
      obtain ⟨entry, hentry, hversion⟩ := Option.bind_eq_some_iff.mp h
      split at hversion
      · rename_i hsession
        cases hversion
        exact ⟨List.mem_singleton_self _, entry, hentry, hsession⟩
      · cases hversion
  | snapshot count =>
      obtain ⟨entry, hentry, hsession⟩ := getElem?_of_latest (Option.some.inj h)
      rw [List.getElem?_take] at hentry
      split at hentry
      · rename_i hcount
        exact ⟨List.mem_range.mpr hcount, entry, hentry, hsession⟩
      · cases hentry

/-- **An older stamp dates some session back to before a change that the newer one tells
of.** -/
theorem Stamp.Older.predates {first second : Stamp} {changes : List Change}
    (h : first.Older changes second) :
    ∃ index ∈ second.tells, first.predates changes index = true := by
  obtain ⟨session, older, newer, hfirst, hsecond, hlt⟩ := h
  obtain ⟨index, rfl⟩ : ∃ index, newer = index + 1 := ⟨newer - 1, by omega⟩
  obtain ⟨htold, entry, hentry, hsession⟩ := told_of_version hsecond
  refine ⟨index, htold, ?_⟩
  cases first with
  | change earlier =>
      obtain ⟨previous, hprevious, hversion⟩ := Option.bind_eq_some_iff.mp hfirst
      split at hversion
      · rename_i hsame
        cases hversion
        have hkeys : (previous.key == entry.key) = true :=
          PartialEquivBEq.trans hsame (PartialEquivBEq.symm hsession)
        simp only [Stamp.predates, sameSession, hprevious, hentry, hkeys, Bool.and_true,
          decide_eq_true_eq]
        omega
      · cases hversion
  | snapshot count =>
      -- had the snapshot been taken after the change, it would show it
      simp only [Stamp.predates, decide_eq_true_eq]
      by_contra hcount
      have htaken : (changes.take count)[index]? = some entry := by
        rw [List.getElem?_take_of_lt (by omega), hentry]
      have hshown := le_latest htaken hsession
      cases hfirst
      omega

namespace EventLoop

variable {floatText : PyFloat → String} {d planned : EventLoop} {action : Action}
  {written : Option (Writer × Message)}

/-! ## In turn -/

/-- What the pending tasks are going to write to a client that is connected by then. -/
def pending (d : EventLoop) (writer : Writer) : List Stamp :=
  d.waitingChanges.map .change ++
    (d.inflight.filter fun broadcast => decide (writer ∈ broadcast.remaining)).map
      (·.message.stamp)

/-- Something pending dates the session of a change back to before that change. -/
def behind (d : EventLoop) (writer : Writer) (index : Nat) : Bool :=
  (d.pending writer).any fun stamp => stamp.predates d.changes index

/-- The message that an action begins to send, and the clients it is for. -/
def begins (d : EventLoop) : Action → Option (Stamp × List Writer)
  | .start _ _ =>
      match d.scheduled with
      | .diff task :: _ => some (.change task.change, d.clients)
      | .handler writer :: _ => some (.snapshot d.changes.length, [writer])
      | [] => none
  | .announce _ _ =>
      match d.announcing with
      | (index, _) :: _ => some (.change index, d.clients)
      | [] => none
  | .tick _ _ => some (.snapshot d.changes.length, d.clients)
  | _ => none

/-- No message is begun for a healthy client while something is pending for it from before
a change that the message tells of. -/
def inTurn (d : EventLoop) (action : Action) : Bool :=
  match d.begins action with
  | some (stamp, writers) =>
      writers.all fun writer =>
        d.broken writer || stamp.tells.all fun index => !d.behind writer index
  | none => true

theorem mem_pending {writer : Writer} {stamp : Stamp} :
    stamp ∈ d.pending writer ↔
      (∃ index ∈ d.waitingChanges, stamp = .change index) ∨
        ∃ broadcast ∈ d.inflight, writer ∈ broadcast.remaining ∧
          stamp = broadcast.message.stamp := by
  simp [pending, and_assoc, eq_comm]

theorem mem_pending_of_owed {writer : Writer} {stamp : Stamp} (h : stamp ∈ d.owed writer) :
    stamp ∈ d.pending writer :=
  mem_pending.mpr ((mem_owed.mp h).imp_left And.right)

theorem Bounded.pending (h : Bounded d) {writer : Writer} {stamp : Stamp}
    (hstamp : stamp ∈ d.pending writer) : stamp.Within d.changes.length := by
  rcases mem_pending.mp hstamp with ⟨index, hindex, rfl⟩ | ⟨broadcast, hmem, -, rfl⟩
  · exact h.waiting index hindex
  · exact h.inflight broadcast hmem

theorem Bounded.takes (h : Bounded d) {owner : Owner} {body : Json} {stamp : Stamp}
    {order : List Writer} {source : EventLoop}
    (takes : Takes floatText d action owner body stamp order source) :
    stamp.Within d.changes.length := by
  rcases takes.stamped with ⟨index, hindex, rfl⟩ | rfl
  · exact h.waiting index hindex
  · exact Nat.le_refl _

/-- What is pending is not older than a message that is begun in turn. -/
theorem not_older_begun (hturn : d.inTurn action = true) {told : Stamp} {writers : List Writer}
    (hbegins : d.begins action = some (told, writers)) {writer : Writer}
    (hwriter : writer ∈ writers) (hhealthy : d.broken writer = false) {stamp : Stamp}
    (hpending : stamp ∈ d.pending writer) : ¬ stamp.Older d.changes told := by
  intro holder
  obtain ⟨index, hindex, hpredates⟩ := holder.predates
  have hbehind : d.behind writer index = true :=
    List.any_eq_true.mpr ⟨stamp, hpending, hpredates⟩
  rw [inTurn, hbegins] at hturn
  have hall := List.all_eq_true.mp hturn writer hwriter
  rw [hhealthy, Bool.false_or] at hall
  have hnot := List.all_eq_true.mp hall index hindex
  rw [hbehind] at hnot
  cases hnot

theorem begins_of_takes {owner : Owner} {body : Json} {stamp : Stamp} {order : List Writer}
    {source : EventLoop} (takes : Takes floatText d action owner body stamp order source) :
    d.begins action = some (stamp, d.clients) := by
  cases takes with
  | diff oldest => simp [begins, oldest]
  | reaper next => simp [begins, next]
  | ticker => rfl

theorem begins_of_handler {order : List Writer} {ts : ℚ} {writer : Writer}
    {rest : List Scheduled} (oldest : d.scheduled = .handler writer :: rest) :
    d.begins (.start order ts) = some (.snapshot d.changes.length, [writer]) := by
  simp [begins, oldest]

/-! ## What a move can add to what is owed -/

theorem clients_of_move (move : Move floatText d action planned written) {writer : Writer}
    (h : writer ∈ planned.clients) : writer ∈ d.clients ∨ d.Ungreeted writer := by
  cases move with
  | @greeted order ts greetedWriter rest oldest =>
      rcases List.mem_append.mp h with hold | hnew
      · exact .inl hold
      · refine .inr (.inl ?_)
        rw [List.mem_singleton.mp hnew, oldest, handlers_handler]
        exact List.mem_cons_self
  | skipped takes => exact .inl (takes.frame.clients ▸ h)
  | began takes => exact .inl (takes.frame.clients ▸ h)
  | left => exact .inl (List.mem_of_mem_erase h)
  | finished => exact .inl (List.mem_filter.mp h).1
  | broke => exact .inl h
  | accepted => exact .inl h
  | touched => exact .inl h
  | observed => exact .inl h
  | swept => exact .inl h
  | advanced => exact .inl h

/-- What a client is owed after a move it was owed before, or it is news, or it was pending
when the client was greeted. -/
theorem owed_of_move (move : Move floatText d action planned written) {writer : Writer}
    {stamp : Stamp} (h : stamp ∈ planned.owed writer) :
    stamp ∈ d.owed writer ∨ stamp.News d.changes.length ∨
      d.Ungreeted writer ∧ stamp ∈ d.pending writer := by
  rcases mem_owed.mp h with ⟨hclient, index, hindex, rfl⟩ | ⟨broadcast, hmem, hwriter, rfl⟩
  · rcases mem_waitingChanges_of_move move hindex with hold | ⟨hnew, -⟩
    · rcases clients_of_move move hclient with hregistered | hungreeted
      · exact .inl (mem_owed.mpr (.inl ⟨hregistered, index, hold, rfl⟩))
      · exact .inr (.inr ⟨hungreeted,
          List.mem_append_left _ (List.mem_map_of_mem hold)⟩)
    · exact .inr (.inl hnew)
  · rcases mem_inflight_of_move move hmem with
      ⟨before, hbefore, hmessage, hsubset⟩ |
        ⟨owner, body, stamp, first, source, takes, order, hmessage⟩
    · left
      rw [hmessage]
      exact mem_owed.mpr (.inr ⟨before, hbefore, hsubset hwriter, rfl⟩)
    · rw [hmessage]
      rcases takes.stamped with ⟨index, hindex, rfl⟩ | rfl
      · exact .inl (mem_owed.mpr (.inl
          ⟨order.mem_iff.mp (List.mem_cons_of_mem _ hwriter), index, hindex, rfl⟩))
      · exact .inr (.inl rfl)

/-! ## Runs in turn -/

/-- No client is written an older version of a session after a newer one. -/
def Ordered (d : EventLoop) : Prop :=
  ∀ writer, (d.sent writer).Pairwise fun earlier later =>
    ¬ later.stamp.Older d.changes earlier.stamp

/-- Logs are ordered, and nothing that is still owed is older than what was written or
than what is under way. -/
structure InOrder (d : EventLoop) : Prop where
  coherent : Coherent d
  bounded : Bounded d
  ordered : Ordered d
  owed : ∀ writer, ∀ message ∈ d.sent writer, ∀ stamp ∈ d.owed writer,
    ¬ stamp.Older d.changes message.stamp
  lined : ∀ broadcast ∈ d.inflight, ∀ writer ∈ broadcast.remaining, d.broken writer = false →
    ∀ stamp ∈ d.owed writer, ¬ stamp.Older d.changes broadcast.message.stamp

/-- The write that ends a move is not older than what the client has been sent. -/
theorem InOrder.not_older_written (h : InOrder d) {writer : Writer} {message sentMessage : Message}
    (move : Move floatText d action planned (some (writer, message)))
    (hsent : sentMessage ∈ d.sent writer) :
    ¬ message.stamp.Older planned.changes sentMessage.stamp := by
  obtain ⟨news, hnews⟩ := changes_of_move move
  have hwithin := h.bounded.sent writer sentMessage hsent
  rw [hnews]
  rcases stamp_of_written move with howed | hstamp
  · rw [Stamp.older_append_iff (h.bounded.owed howed) hwithin]
    exact h.owed writer sentMessage hsent _ howed
  · refine Stamp.News.not_older ?_ hwithin news
    rw [hstamp]
    exact rfl

/-- Nothing owed after a move is older than what was written before it. -/
theorem InOrder.not_older_owed (h : InOrder d) (move : Move floatText d action planned written)
    {writer : Writer} {message : Message} (hsent : message ∈ d.sent writer) {stamp : Stamp}
    (hstamp : stamp ∈ planned.owed writer) :
    ¬ stamp.Older planned.changes message.stamp := by
  obtain ⟨news, hnews⟩ := changes_of_move move
  have hwithin := h.bounded.sent writer message hsent
  rw [hnews]
  rcases owed_of_move move hstamp with howed | hnew | ⟨hungreeted, -⟩
  · rw [Stamp.older_append_iff (h.bounded.owed howed) hwithin]
    exact h.owed writer message hsent stamp howed
  · exact hnew.not_older hwithin news
  · rw [h.coherent.silent writer hungreeted] at hsent
    exact absurd hsent List.not_mem_nil

/-- Nothing owed after a move is older than a broadcast that was under way before it. -/
theorem InOrder.not_older_suspended (h : InOrder d)
    (move : Move floatText d action planned written) {broadcast : Broadcast}
    (hmem : broadcast ∈ d.inflight) {writer : Writer} (hwriter : writer ∈ broadcast.remaining)
    (hhealthy : d.broken writer = false) {stamp : Stamp}
    (hstamp : stamp ∈ planned.owed writer) :
    ¬ stamp.Older planned.changes broadcast.message.stamp := by
  obtain ⟨news, hnews⟩ := changes_of_move move
  have hwithin := h.bounded.inflight broadcast hmem
  rw [hnews]
  rcases owed_of_move move hstamp with howed | hnew | ⟨hungreeted, -⟩
  · rw [Stamp.older_append_iff (h.bounded.owed howed) hwithin]
    exact h.lined broadcast hmem writer hwriter hhealthy stamp howed
  · exact hnew.not_older hwithin news
  · exact absurd hwriter (h.coherent.idle writer hungreeted broadcast hmem)

/-- Nothing owed after a move is older than the message that it begins, in turn, to send. -/
theorem InOrder.not_older_beginning (h : InOrder d) (hturn : d.inTurn action = true)
    (move : Move floatText d action planned written) {told : Stamp} {writers : List Writer}
    (hbegins : d.begins action = some (told, writers))
    (hwithin : told.Within d.changes.length) {writer : Writer} (hwriter : writer ∈ writers)
    (hhealthy : d.broken writer = false) {stamp : Stamp}
    (hstamp : stamp ∈ planned.owed writer) :
    ¬ stamp.Older planned.changes told := by
  obtain ⟨news, hnews⟩ := changes_of_move move
  rw [hnews]
  rcases owed_of_move move hstamp with howed | hnew | ⟨-, hpending⟩
  · rw [Stamp.older_append_iff (h.bounded.owed howed) hwithin]
    exact not_older_begun hturn hbegins hwriter hhealthy (mem_pending_of_owed howed)
  · exact hnew.not_older hwithin news
  · rw [Stamp.older_append_iff (h.bounded.pending hpending) hwithin]
    exact not_older_begun hturn hbegins hwriter hhealthy hpending

variable {repr : Json → Except PyErr String} {after : EventLoop}

/-- Nothing owed to a healthy client after a move is older than what the move ends with
writing to it. -/
theorem InOrder.not_older_of_written (h : InOrder d) (hturn : d.inTurn action = true)
    {writer : Writer} {message : Message}
    (move : Move floatText d action planned (some (writer, message)))
    (hhealthy : d.broken writer = false) {stamp : Stamp}
    (hstamp : stamp ∈ planned.owed writer) :
    ¬ stamp.Older planned.changes message.stamp := by
  rcases written_of_move move with ⟨before, hbefore, hwriter, rfl⟩ |
    ⟨owner, body, told, rest, source, takes, order, rfl⟩ | ⟨rest, ts, ⟨oldest, clients, rfl⟩, rfl⟩
  · exact h.not_older_suspended move hbefore hwriter hhealthy hstamp
  · exact h.not_older_beginning hturn move (begins_of_takes takes) (h.bounded.takes takes)
      (order.mem_iff.mp List.mem_cons_self) hhealthy hstamp
  · exact h.not_older_beginning hturn move (begins_of_handler oldest) (Nat.le_refl _)
      (List.mem_singleton_self _) hhealthy hstamp

/-- Nothing owed after a move is older than what is under way to a healthy client. -/
theorem InOrder.not_older_inflight (h : InOrder d) (hturn : d.inTurn action = true)
    (move : Move floatText d action planned written) {broadcast : Broadcast}
    (hmem : broadcast ∈ planned.inflight) {writer : Writer}
    (hwriter : writer ∈ broadcast.remaining) (hhealthy : d.broken writer = false)
    {stamp : Stamp} (hstamp : stamp ∈ planned.owed writer) :
    ¬ stamp.Older planned.changes broadcast.message.stamp := by
  rcases mem_inflight_of_move move hmem with ⟨before, hbefore, hmessage, hsubset⟩ |
    ⟨owner, body, told, first, source, takes, order, hmessage⟩
  · rw [hmessage]
    exact h.not_older_suspended move hbefore (hsubset hwriter) hhealthy hstamp
  · rw [hmessage]
    exact h.not_older_beginning hturn move (begins_of_takes takes) (h.bounded.takes takes)
      (order.mem_iff.mp (List.mem_cons_of_mem _ hwriter)) hhealthy hstamp

/-- **A step in turn keeps the order.** -/
theorem inOrder_step (h : InOrder d) (hturn : d.inTurn action = true)
    (hstep : d.step repr floatText action = some after) : InOrder after := by
  obtain ⟨planned, written, -, move, rfl⟩ := move_of_step hstep
  have hsame := sameButSent_deliver planned written
  have hsent := sent_of_move move
  obtain ⟨news, hnews⟩ := changes_of_move move
  have hhealthy : ∀ {writer}, planned.broken writer = false → d.broken writer = false :=
    fun {writer} hplanned => Bool.eq_false_of_not_eq_true fun hbroken => by
      rw [broken_of_move move hbroken] at hplanned
      cases hplanned
  -- the order of what had been written is not affected by new changes
  have hbefore : ∀ writer, (d.sent writer).Pairwise fun earlier later =>
      ¬ later.stamp.Older planned.changes earlier.stamp := fun writer =>
    (h.ordered writer).imp_of_mem fun hearlier hlater hordered => by
      rw [hnews, Stamp.older_append_iff (h.bounded.sent writer _ hlater)
        (h.bounded.sent writer _ hearlier)]
      exact hordered
  refine ⟨coherent_of_move h.coherent move, bounded_of_move h.bounded move, ?_, ?_, ?_⟩
  · intro writer
    rw [hsame.changes]
    cases written with
    | none =>
        rw [deliver, hsent]
        exact hbefore writer
    | some entry =>
        obtain ⟨target, message⟩ := entry
        rw [deliver, sent_write, hsent]
        split
        · rename_i htarget
          rw [htarget.2]
          refine List.pairwise_append.mpr ⟨hbefore target, List.pairwise_singleton _ _, ?_⟩
          intro earlier hearlier later hlater
          rw [List.mem_singleton.mp hlater]
          exact h.not_older_written move hearlier
        · exact hbefore writer
  · intro writer message hmem stamp hstamp
    rw [hsame.owed] at hstamp
    rw [hsame.changes]
    rcases mem_sent_deliver hmem with hold | rfl
    · rw [hsent] at hold
      exact h.not_older_owed move hold hstamp
    · -- the message just written, unless the socket was dead
      by_cases hbroken : planned.broken writer = false
      · exact h.not_older_of_written hturn move (hhealthy hbroken) hstamp
      · rw [deliver, sent_write, if_neg fun hboth => hbroken hboth.1, hsent] at hmem
        exact h.not_older_owed move hmem hstamp
  · intro broadcast hmem writer hwriter hunbroken stamp hstamp
    rw [hsame.owed] at hstamp
    rw [hsame.inflight] at hmem
    rw [hsame.broken] at hunbroken
    rw [hsame.changes]
    exact h.not_older_inflight hturn move hmem hwriter (hhealthy hunbroken) hstamp

theorem inOrder_fresh (registry : SessionRegistry) : InOrder (fresh registry) where
  coherent := coherent_fresh registry
  bounded := bounded_fresh registry
  ordered _ := List.Pairwise.nil
  owed _ _ h := absurd h List.not_mem_nil
  lined _ h := absurd h List.not_mem_nil

/-- **When every message is begun in its turn the logs are ordered**, in whatever order the
drains return. -/
theorem inOrder_of_run {registry : SessionRegistry} {actions : List Action} {final : EventLoop}
    (hrun : Run (step repr floatText) (fun d action => d.inTurn action = true) (fresh registry)
      actions final) : InOrder final :=
  hrun.invariant (inOrder_fresh registry)
    fun _ _ _ h hturn hstep => inOrder_step h hturn hstep

/-! ### A removal announced after the session has come back -/

def agentWithPid (sessionId : String) (pid : Int) : AgentRecord where
  sessionId := .str sessionId
  projectName := .str "proj"
  cwd := .str "/tmp/proj"
  pid := .int pid
  entrypoint := .str "cli"
  state := .idle
  actionLabel := "Idle"
  stateSince := 0

/-- Two sessions whose processes have died. -/
def crashed : SessionRegistry :=
  (SessionRegistry.fresh.store (.str "a") (agentWithPid "a" 1)).store (.str "b")
    (agentWithPid "b" 2)

def allDead : Host where
  sessionFiles := []
  kill _ := .error .processLookupError

def prompt (sessionId : String) : Json :=
  .obj [("session_id", .str sessionId), ("hook_event_name", .str "UserPromptSubmit")]

/-- While the drain after `remove a` is suspended, `b` comes back and its upsert is
written; only then the reaper goes on to `remove b`. -/
def revival : List Action :=
  [.accept, .start [] 1, .sweep allDead, .announce [0] 2, .event allDead (prompt "b") 3,
    .start [0] 3, .resume 0 false, .announce [0] 4]

theorem reaper_overtaken :
    ¬ ∀ (repr : Json → Except PyErr String) (floatText : PyFloat → String)
      (registry : SessionRegistry) (actions : List Action) (final : EventLoop),
      Run (step repr floatText) (fun _ _ => True) (fresh registry) actions final →
        Ordered final := by
  intro hclaim
  obtain ⟨final, hrun, hstamps, hchanges⟩ :
      ∃ final, runActions (step (fun _ => .ok "") fun _ => "") (fresh crashed) revival =
          some final ∧
        (final.sent 0).map (·.stamp) = [.snapshot 0, .change 0, .change 2, .change 1] ∧
        final.changes = [⟨.str "a", .remove⟩, ⟨.str "b", .remove⟩, ⟨.str "b", .upsert⟩] :=
    ⟨_, rfl, rfl, rfl⟩
  have hordered : ((final.sent 0).map (·.stamp)).Pairwise fun earlier later =>
      ¬ later.Older final.changes earlier :=
    List.pairwise_map.mpr
      (hclaim _ _ crashed revival final (run_of_runActions hrun fun _ _ _ => trivial) 0)
  rw [hstamps, hchanges] at hordered
  -- the upsert of `b` is the third change, the removal written after it the second
  have hlast := List.rel_of_pairwise_cons hordered.of_cons.of_cons List.mem_cons_self
  exact hlast ⟨.str "b", 2, 3, rfl, rfl, by decide⟩

end EventLoop

end Daemon
end SiliconOffice
