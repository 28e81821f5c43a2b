import SiliconOffice.Daemon.Ordering
import SiliconOffice.Daemon.Rest

/-!
# Where a message out of turn leads

`inTurn` asks for no more than the order of the logs needs.  After a step out of turn the
drains can return in such an order that the message it began gets to a client first
(`disordered_of_under_way`), and what was pending for that client gets there later
(`disordered_of_written`), because the tasks leave nothing pending before they come to rest.

`ordered_and_exact` puts this beside the order along runs in turn.
-/

namespace SiliconOffice
namespace Daemon

open Library Python Common

/-- What dates a session back to before a change is older than what tells of the change. -/
theorem Stamp.older_of_predates {first told : Stamp} {changes : List Change} {index : Nat}
    (hwithin : told.Within changes.length) (htold : index ∈ told.tells)
    (hpredates : first.predates changes index = true) : first.Older changes told := by
  have hindex : index < changes.length := by
    cases told with
    | change own =>
        rw [List.mem_singleton.mp htold]
        exact hwithin
    | snapshot count => exact Nat.lt_of_lt_of_le (List.mem_range.mp htold) hwithin
  obtain ⟨entry, hentry⟩ : ∃ entry, changes[index]? = some entry :=
    ⟨changes[index], List.getElem?_eq_getElem hindex⟩
  have hsame : (entry.key == entry.key) = true := ReflBEq.rfl
  obtain ⟨newer, hnewer, hindexNewer⟩ :
      ∃ newer, told.version changes entry.key = some newer ∧ index < newer := by
    cases told with
    | change own =>
        rw [List.mem_singleton.mp htold] at hentry
        refine ⟨own + 1, ?_, ?_⟩
        · rw [version, hentry, Option.bind_some, if_pos hsame]
        · rw [List.mem_singleton.mp htold]
          exact Nat.lt_succ_self own
    | snapshot count =>
        refine ⟨_, rfl, le_latest ?_ hsame⟩
        rw [List.getElem?_take_of_lt (List.mem_range.mp htold), hentry]
  obtain ⟨older, holder, holderIndex⟩ :
      ∃ older, first.version changes entry.key = some older ∧ older ≤ index := by
    cases first with
    | change earlier =>
        obtain ⟨hearlier, hsession⟩ := Bool.and_eq_true_iff.mp hpredates
        rw [decide_eq_true_eq] at hearlier
        cases hprevious : changes[earlier]? with
        | none =>
            rw [sameSession, hprevious] at hsession
            cases hsession
        | some previous =>
            rw [sameSession, hprevious, hentry] at hsession
            refine ⟨earlier + 1, ?_, hearlier⟩
            rw [version, hprevious, Option.bind_some, if_pos hsession]
    | snapshot count =>
        refine ⟨_, rfl, ?_⟩
        have hcount : count ≤ index := of_decide_eq_true hpredates
        have hlatest := latest_le_length entry.key (changes.take count)
        rw [List.length_take] at hlatest
        omega
  exact ⟨entry.key, older, newer, holder, hnewer, by omega⟩

theorem Stamp.Older.ne {first second : Stamp} {changes : List Change}
    (h : first.Older changes second) : first ≠ second := by
  rintro rfl
  obtain ⟨session, older, newer, holder, hnewer, hlt⟩ := h
  rw [holder] at hnewer
  cases hnewer
  exact Nat.lt_irrefl _ hlt

namespace EventLoop

variable {repr : Json → Except PyErr String} {floatText : PyFloat → String}
  {d planned : EventLoop} {action : Action} {written : Option (Writer × Message)}
  {writer : Writer} {stamp : Stamp}

/-! ## Whom a broadcast drops -/

/-- A broadcast drops a client only when its socket is dead. -/
def DropsBroken (d : EventLoop) : Prop :=
  ∀ broadcast ∈ d.inflight, ∀ writer, Failing broadcast writer → d.broken writer = true

theorem DropsBroken.deadAfter (h : DropsBroken d) {broadcast : Broadcast}
    (hmem : broadcast ∈ d.inflight) {drainRaises : Bool}
    (hdead : writer ∈ d.deadAfter broadcast drainRaises) : d.broken writer = true := by
  unfold EventLoop.deadAfter at hdead
  split at hdead
  · rename_i hfails
    rcases List.mem_append.mp hdead with hbefore | hcurrent
    · exact h broadcast hmem writer (.inl hbefore)
    · rw [List.mem_singleton.mp hcurrent]
      rcases Bool.or_eq_true_iff.mp hfails with hrefused | hraised
      · exact h broadcast hmem _ (.inr ⟨rfl, by simpa using hrefused⟩)
      · exact (Bool.and_eq_true_iff.mp hraised).2
  · exact h broadcast hmem writer (.inl hdead)

theorem dropsBroken_of_move (h : DropsBroken d)
    (move : Move floatText d action planned written) :
    DropsBroken (deliver (planned, written)) := by
  have hsame := sameButSent_deliver planned written
  intro broadcast hmem writer hfailing
  rw [hsame.inflight] at hmem
  rw [hsame.broken]
  have hold : broadcast ∈ d.inflight → planned.broken writer = true := fun hbefore =>
    broken_of_move move (h broadcast hbefore writer hfailing)
  cases move with
  | @began action owner body stamp first rest source takes order =>
      rw [began, takes.frame.inflight] at hmem
      rcases List.mem_append.mp hmem with hbefore | hnew
      · exact hold hbefore
      · rw [List.mem_singleton.mp hnew] at hfailing
        rcases hfailing with hdead | ⟨rfl, hrefused⟩
        · exact absurd hdead List.not_mem_nil
        · simpa [began] using hrefused
  | @advanced drainRaises earlier later suspendedIn next rest suspended remaining =>
      rcases mem_middle.mp hmem with rfl | hother
      · rcases hfailing with hdead | ⟨rfl, hrefused⟩
        · exact h.deadAfter (mem_of_suspended suspended) hdead
        · simpa using hrefused
      · exact hold (mem_of_others suspended hother)
  | finished suspended => exact hold (mem_of_others suspended hmem)
  | skipped takes => exact hold (takes.frame.inflight ▸ hmem)
  | broke => exact hold hmem
  | left => exact hold hmem
  | accepted => exact hold hmem
  | touched => exact hold hmem
  | observed => exact hold hmem
  | swept => exact hold hmem
  | greeted => exact hold hmem

theorem dropsBroken_of_run {registry : SessionRegistry} {actions : List Action}
    {final : EventLoop}
    (hrun : Run (step repr floatText) (fun _ _ => True) (fresh registry) actions final) :
    DropsBroken final := by
  refine hrun.invariant (fun _ hmem => absurd hmem List.not_mem_nil)
    fun before action after h _ hstep => ?_
  obtain ⟨planned, written, -, move, rfl⟩ := move_of_step hstep
  exact dropsBroken_of_move h move

/-! ## What a healthy client is owed gets to it -/

/-- What a task does leaves dead sockets and registry changes as they are. -/
theorem unchanged_of_task (htask : action.ofTask = true)
    (move : Move floatText d action planned written) :
    planned.broken = d.broken ∧ planned.changes = d.changes := by
  cases move with
  | skipped takes => exact ⟨takes.frame.broken, takes.frame.changes⟩
  | began takes => exact ⟨takes.frame.broken, takes.frame.changes⟩
  | touched => exact ⟨rfl, rfl⟩
  | greeted => exact ⟨rfl, rfl⟩
  | advanced => exact ⟨rfl, rfl⟩
  | finished => exact ⟨rfl, rfl⟩
  | broke => cases htask
  | left => cases htask
  | accepted => cases htask
  | observed => cases htask
  | swept => cases htask

/-- A change that begins to be broadcast to a client, or goes on waiting. -/
theorem Takes.owed {owner : Owner} {body : Json} {told : Stamp} {first : Writer}
    {rest : List Writer} {source : EventLoop}
    (takes : Takes floatText d action owner body told (first :: rest) source)
    (hstamp : stamp ∈ d.owed writer) : stamp = told ∨ stamp ∈ source.owed writer := by
  have hframe := takes.frame
  rcases mem_owed.mp hstamp with ⟨hclient, index, hindex, rfl⟩ | hinflight
  · rcases takes.waiting with ⟨begun, rfl, hperm⟩ | ⟨rfl, hsame⟩
    · rcases List.mem_cons.mp (hperm.mem_iff.mp hindex) with rfl | hwaiting
      · exact .inl rfl
      · exact .inr (mem_owed.mpr (.inl ⟨hframe.clients ▸ hclient, index, hwaiting, rfl⟩))
    · exact .inr (mem_owed.mpr (.inl
        ⟨hframe.clients ▸ hclient, index, hsame ▸ hindex, rfl⟩))
  · rw [← hframe.inflight] at hinflight
    exact .inr (mem_owed.mpr (.inr hinflight))

/-- **A step of a task takes nothing from a healthy client but what it writes to it.** -/
theorem owed_or_written (hdrops : DropsBroken d) (htask : action.ofTask = true)
    (move : Move floatText d action planned written) (hhealthy : d.broken writer = false)
    (hstamp : stamp ∈ d.owed writer) :
    stamp ∈ planned.owed writer ∨
      ∃ message, written = some (writer, message) ∧ message.stamp = stamp := by
  cases move with
  | touched sameTags =>
      refine .inl (mem_owed.mpr ((mem_owed.mp hstamp).imp_left ?_))
      rintro ⟨hclient, index, hindex, rfl⟩
      refine ⟨hclient, index, ?_, rfl⟩
      rw [waitingChanges, scheduledChanges_congr sameTags]
      exact hindex
  | greeted oldest =>
      refine .inl (mem_owed.mpr ((mem_owed.mp hstamp).imp_left ?_))
      rintro ⟨hclient, index, hindex, rfl⟩
      refine ⟨List.mem_append_left _ hclient, index, ?_, rfl⟩
      rw [waitingChanges, oldest] at hindex
      exact hindex
  | skipped takes nobody =>
      refine .inl (mem_owed.mpr (.inr ?_))
      rw [takes.frame.inflight]
      rcases mem_owed.mp hstamp with ⟨hclient, -⟩ | hinflight
      · rw [nobody] at hclient
        exact absurd hclient List.not_mem_nil
      · exact hinflight
  | @began action owner body told first rest source takes order =>
      have hframe := takes.frame
      rcases takes.owed hstamp with rfl | howed
      · -- the message that begins goes to the client now or later
        rcases mem_owed.mp hstamp with ⟨hclient, -⟩ | ⟨broadcast, hmem, hwriter, hsame⟩
        · rcases List.mem_cons.mp (order.mem_iff.mpr hclient) with rfl | hrest
          · exact .inr ⟨_, rfl, rfl⟩
          · exact .inl (mem_owed.mpr (.inr
              ⟨_, List.mem_append_right _ (List.mem_singleton_self _), hrest, rfl⟩))
        · rw [← hframe.inflight] at hmem
          exact .inl (mem_owed.mpr (.inr
            ⟨broadcast, List.mem_append_left _ hmem, hwriter, hsame⟩))
      · refine .inl (mem_owed.mpr ((mem_owed.mp howed).imp id ?_))
        rintro ⟨broadcast, hmem, hwriter⟩
        exact ⟨broadcast, List.mem_append_left _ hmem, hwriter⟩
  | @advanced drainRaises earlier later suspendedIn next rest suspended remaining =>
      rcases mem_owed.mp hstamp with hwaiting | ⟨broadcast, hmem, hwriter, rfl⟩
      · exact .inl (mem_owed.mpr (.inl hwaiting))
      · rw [suspended] at hmem
        rcases mem_middle.mp hmem with rfl | hother
        · rw [remaining] at hwriter
          rcases List.mem_cons.mp hwriter with rfl | hrest
          · exact .inr ⟨_, rfl, rfl⟩
          · exact .inl (mem_owed.mpr (.inr ⟨_, mem_middle.mpr (.inl rfl), hrest, rfl⟩))
        · exact .inl (mem_owed.mpr (.inr
            ⟨broadcast, mem_middle.mpr (.inr hother), hwriter, rfl⟩))
  | @finished drainRaises earlier later suspendedIn suspended remaining =>
      have hkept : writer ∉ d.deadAfter suspendedIn drainRaises := fun hdead => by
        rw [hdrops.deadAfter (mem_of_suspended suspended) hdead] at hhealthy
        cases hhealthy
      rcases mem_owed.mp hstamp with ⟨hclient, hwaiting⟩ | ⟨broadcast, hmem, hwriter, rfl⟩
      · exact .inl (mem_owed.mpr (.inl
          ⟨List.mem_filter.mpr ⟨hclient, decide_eq_true hkept⟩, hwaiting⟩))
      · rw [suspended] at hmem
        rcases mem_middle.mp hmem with rfl | hother
        · rw [remaining] at hwriter
          exact absurd hwriter List.not_mem_nil
        · exact .inl (mem_owed.mpr (.inr ⟨broadcast, hother, hwriter, rfl⟩))
  | broke => cases htask
  | left => cases htask
  | accepted => cases htask
  | observed => cases htask
  | swept => cases htask

/-! ## Into disorder -/

variable (repr floatText) in
/-- The tasks can go on in such a way that some log is disordered. -/
def CanDisorder (d : EventLoop) : Prop :=
  ∃ later final, Run (step repr floatText) (fun _ action => action.ofTask = true) d later final ∧
    ¬ Ordered final

theorem canDisorder_of_step {next : EventLoop} (htask : action.ofTask = true)
    (hstep : d.step repr floatText action = some next) (h : CanDisorder repr floatText next) :
    CanDisorder repr floatText d := by
  obtain ⟨later, final, hrun, hdisordered⟩ := h
  exact ⟨action :: later, final, .prepend hstep htask hrun, hdisordered⟩

theorem mem_sent_of_deliver {message : Message} (h : message ∈ d.sent writer) :
    message ∈ (deliver (d, written)).sent writer := by
  cases written with
  | none => exact h
  | some entry =>
      rw [deliver, sent_write]
      split
      · exact List.mem_append_left _ h
      · exact h

theorem mem_sent_written {message : Message} (hhealthy : d.broken writer = false) :
    message ∈ (deliver (d, some (writer, message))).sent writer := by
  rw [deliver, sent_write, if_pos ⟨hhealthy, rfl⟩]
  exact List.mem_append_right _ (List.mem_singleton_self _)

/-- What is written after something newer leaves a disordered log. -/
theorem not_ordered_of_written {message newer : Message} (hhealthy : d.broken writer = false)
    (hnewer : newer ∈ d.sent writer) (holder : message.stamp.Older d.changes newer.stamp) :
    ¬ Ordered (deliver (d, some (writer, message))) := by
  intro hordered
  have hlog := hordered writer
  rw [(sameButSent_deliver _ _).changes, deliver, sent_write, if_pos ⟨hhealthy, rfl⟩] at hlog
  exact (List.pairwise_append.mp hlog).2.2 newer hnewer message (List.mem_singleton_self _) holder

/-- A healthy client has been written something newer than what it is still owed: on their
way to rest the tasks write it that. -/
theorem disordered_of_written (stamp : Stamp) (hdrops : DropsBroken d)
    (hhealthy : d.broken writer = false) (hstamp : stamp ∈ d.owed writer) {newer : Message}
    (hnewer : newer ∈ d.sent writer) (holder : stamp.Older d.changes newer.stamp) :
    CanDisorder repr floatText d := by
  generalize hwork : d.workload = work
  induction work using Nat.strongRecOn generalizing d with
  | _ work ih =>
    by_cases hstuck : ∀ action : Action, action.ofTask = true →
        d.step repr floatText action = none
    · -- at rest nothing is owed
      obtain ⟨hscheduled, -, hannouncing, hinflight⟩ := idle_of_stuck hstuck
      rw [owed, waitingChanges, hscheduled, hannouncing, hinflight] at hstamp
      simp at hstamp
    · push Not at hstuck
      obtain ⟨action, htask, henabled⟩ := hstuck
      obtain ⟨next, hstep⟩ := Option.ne_none_iff_exists'.mp henabled
      have hless : next.workload + 1 ≤ d.workload := by
        have hsettles : action.settles = true := by cases action <;> first | rfl | cases htask
        have hused := workload_step hsettles hstep
        rw [htask] at hused
        exact hused
      obtain ⟨planned, written, -, move, rfl⟩ := move_of_step hstep
      refine canDisorder_of_step htask hstep ?_
      have hsame := sameButSent_deliver planned written
      obtain ⟨hbroken, hchanges⟩ := unchanged_of_task htask move
      rw [← hbroken] at hhealthy
      rw [← hchanges] at holder
      rw [← sent_of_move move] at hnewer
      rcases owed_or_written hdrops htask move (hbroken ▸ hhealthy) hstamp with
        howed | ⟨message, rfl, rfl⟩
      · refine ih _ (by omega) (dropsBroken_of_move hdrops move) ?_ ?_
          (mem_sent_of_deliver hnewer) ?_ rfl
        · rw [hsame.broken]
          exact hhealthy
        · rw [hsame.owed]
          exact howed
        · rw [hsame.changes]
          exact holder
      · exact ⟨[], _, .nil, not_ordered_of_written hhealthy hnewer holder⟩

/-- The same just after the newer message has been written. -/
theorem disordered_of_last_write {newer : Message}
    (hdrops : DropsBroken (deliver (d, some (writer, newer))))
    (hhealthy : d.broken writer = false) (hstamp : stamp ∈ d.owed writer)
    (holder : stamp.Older d.changes newer.stamp) :
    CanDisorder repr floatText (deliver (d, some (writer, newer))) := by
  have hsame := sameButSent_deliver d (some (writer, newer))
  refine disordered_of_written stamp hdrops ?_ ?_ (mem_sent_written hhealthy) ?_
  · rw [hsame.broken]
    exact hhealthy
  · rw [hsame.owed]
    exact hstamp
  · rw [hsame.changes]
    exact holder

/-- The last broadcast has gone on to its next client. -/
def resumed (d : EventLoop) (earlier : List Broadcast) (broadcast : Broadcast) (next : Writer)
    (rest : List Writer) : EventLoop :=
  { d with
    inflight := earlier ++
      [{ broadcast with
        current := next
        accepted := !d.broken next
        remaining := rest
        dead := d.deadAfter broadcast false }] }

theorem step_resumed {earlier : List Broadcast} {broadcast : Broadcast} {next : Writer}
    {rest : List Writer} (hinflight : d.inflight = earlier ++ [broadcast])
    (hremaining : broadcast.remaining = next :: rest) (hruns : d.reaperRuns = false) :
    d.step repr floatText (.resume earlier.length false) =
      some (deliver (d.resumed earlier broadcast next rest, some (next, broadcast.message))) := by
  simp [step, plan, hruns, continueBroadcast, hinflight, hremaining, resumed]

/-- Who awaits a broadcast does not change while the broadcast goes on. -/
theorem reaperRuns_resumed {earlier : List Broadcast} {broadcast : Broadcast} {next : Writer}
    {rest : List Writer} (hinflight : d.inflight = earlier ++ [broadcast]) :
    (d.resumed earlier broadcast next rest).reaperRuns = d.reaperRuns := by
  simp [reaperRuns, awaits, resumed, hinflight]

theorem SameButSent.reaperRuns {after : EventLoop} (h : SameButSent d after) :
    after.reaperRuns = d.reaperRuns := by
  rw [EventLoop.reaperRuns, awaits, h.announcing, h.inflight, EventLoop.reaperRuns, awaits]

/-- What is owed beside some broadcasts is owed with them. -/
theorem mem_owed_of_beside {earlier later : List Broadcast}
    (hinflight : d.inflight = earlier ++ later)
    (h : stamp ∈ ({ d with inflight := earlier } : EventLoop).owed writer) :
    stamp ∈ d.owed writer := by
  refine mem_owed.mpr ((mem_owed.mp h).imp id ?_)
  rintro ⟨broadcast, hmem, hwriter⟩
  refine ⟨broadcast, ?_, hwriter⟩
  rw [hinflight]
  exact List.mem_append_left _ hmem

/-- A healthy client is still to be written a message that is under way, and is owed
something older beside it: the message can get there first. -/
theorem disordered_of_under_way (stamp : Stamp) (hdrops : DropsBroken d)
    (hhealthy : d.broken writer = false) {earlier : List Broadcast} {broadcast : Broadcast}
    (hinflight : d.inflight = earlier ++ [broadcast]) (hwriter : writer ∈ broadcast.remaining)
    (hruns : d.reaperRuns = false)
    (hstamp : stamp ∈ ({ d with inflight := earlier } : EventLoop).owed writer)
    (holder : stamp.Older d.changes broadcast.message.stamp) : CanDisorder repr floatText d := by
  generalize hremaining : broadcast.remaining = remaining at hwriter
  induction remaining generalizing d broadcast with
  | nil => cases hwriter
  | cons next rest ih =>
      have hstep := @step_resumed repr floatText d earlier broadcast next rest hinflight
        hremaining hruns
      refine canDisorder_of_step rfl hstep ?_
      have hsame := sameButSent_deliver (d.resumed earlier broadcast next rest)
        (some (next, broadcast.message))
      have hafter : DropsBroken
          (deliver (d.resumed earlier broadcast next rest, some (next, broadcast.message))) := by
        obtain ⟨planned, written, -, move, hafter⟩ := move_of_step hstep
        rw [hafter]
        exact dropsBroken_of_move hdrops move
      have holderAfter : stamp.Older (deliver (d.resumed earlier broadcast next rest,
          some (next, broadcast.message))).changes broadcast.message.stamp := by
        rw [hsame.changes]
        exact holder
      -- the drain of the last broadcast has returned; nobody else's has
      rcases List.mem_cons.mp hwriter with rfl | hrest
      · exact disordered_of_last_write hafter hhealthy (mem_owed_of_beside rfl hstamp) holder
      · refine ih hafter (hsame.broken ▸ hhealthy) hsame.inflight ?_ ?_ holderAfter rfl hrest
        · rw [hsame.reaperRuns, reaperRuns_resumed hinflight]
          exact hruns
        · unfold owed waitingChanges
          rw [hsame.clients, hsame.scheduled, hsame.announcing]
          exact hstamp

/-! ## Steps out of turn -/

/-- Out of turn a message is begun for a healthy client for whom something older is
pending. -/
theorem behind_of_outOfTurn (hturn : d.inTurn action = false) :
    ∃ told writers index, d.begins action = some (told, writers) ∧ index ∈ told.tells ∧
      ∃ writer ∈ writers, d.broken writer = false ∧
        ∃ stamp ∈ d.pending writer, stamp.predates d.changes index = true := by
  cases hbegins : d.begins action with
  | none =>
      rw [inTurn, hbegins] at hturn
      cases hturn
  | some begun =>
      obtain ⟨told, writers⟩ := begun
      rw [inTurn, hbegins] at hturn
      simp only [List.all_eq_false, Bool.or_eq_true, not_or, Bool.not_eq_true,
        Bool.not_eq_true', Bool.not_eq_false] at hturn
      obtain ⟨writer, hwriter, hhealthy, index, hindex, hbehind⟩ := hturn
      obtain ⟨stamp, hstamp, hpredates⟩ := List.any_eq_true.mp hbehind
      exact ⟨told, writers, index, rfl, hindex, writer, hwriter, hhealthy, stamp, hstamp,
        hpredates⟩

theorem reaperRuns_began {source : EventLoop} {owner : Owner} {message : Message}
    {first : Writer} {rest : List Writer}
    (h : owner = .reaper ∨ source.reaperRuns = false) :
    (source.began owner message first rest).reaperRuns = false := by
  rcases h with rfl | hruns
  · simp [reaperRuns, awaits, began]
  · simp only [reaperRuns, awaits, Bool.and_eq_false_iff, Bool.not_eq_false'] at hruns
    rcases hruns with hnone | hawaits
    · simp [reaperRuns, began, hnone]
    · simp [reaperRuns, awaits, began, hawaits]

/-- What is pending for a registered client is owed to it. -/
theorem owed_of_pending (hclient : writer ∈ d.clients) (h : stamp ∈ d.pending writer) :
    stamp ∈ d.owed writer :=
  mem_owed.mpr ((mem_pending.mp h).imp_left fun hwaiting => ⟨hclient, hwaiting⟩)

/-- A broadcast that has just begun gets to a client before something older can. -/
theorem disordered_of_began {source : EventLoop} {owner : Owner} {message : Message}
    {first : Writer} {rest : List Writer}
    (hdrops : DropsBroken
      (deliver (source.began owner message first rest, some (first, message))))
    (hruns : owner = .reaper ∨ source.reaperRuns = false) (hwriter : writer ∈ first :: rest)
    (hhealthy : source.broken writer = false) (hstamp : stamp ∈ source.owed writer)
    (holder : stamp.Older source.changes message.stamp) :
    CanDisorder repr floatText
      (deliver (source.began owner message first rest, some (first, message))) := by
  have hsame := sameButSent_deliver (source.began owner message first rest)
    (some (first, message))
  have hbeside : stamp ∈ ({ source.began owner message first rest with
      inflight := source.inflight } : EventLoop).owed writer := hstamp
  rcases List.mem_cons.mp hwriter with rfl | hrest
  · exact disordered_of_last_write hdrops hhealthy (mem_owed_of_beside rfl hbeside) holder
  · refine disordered_of_under_way stamp hdrops ?_ hsame.inflight hrest ?_ ?_ ?_
    · rw [hsame.broken]
      exact hhealthy
    · rw [hsame.reaperRuns]
      exact reaperRuns_began hruns
    · unfold owed waitingChanges
      rw [hsame.clients, hsame.scheduled, hsame.announcing]
      exact hstamp
    · rw [hsame.changes]
      exact holder

/-- A broadcast that begins with something older pending can overtake it. -/
theorem disordered_of_broadcast (hdrops : DropsBroken d) {owner : Owner} {body : Json}
    {told : Stamp} {order : List Writer} {source : EventLoop}
    (takes : Takes floatText d action owner body told order source)
    (hbroadcast : broadcast owner body told order source = some (planned, written))
    (hruns : owner = .reaper ∨ source.reaperRuns = false) (hclient : writer ∈ d.clients)
    (hhealthy : d.broken writer = false) (hstamp : stamp ∈ d.pending writer)
    (holder : stamp.Older d.changes told) :
    CanDisorder repr floatText (deliver (planned, written)) := by
  have hframe := takes.frame
  have hdropsAfter := dropsBroken_of_move hdrops (move_of_broadcast takes hbroadcast)
  unfold broadcast at hbroadcast
  split at hbroadcast
  · rename_i hperm
    rw [List.isPerm_iff, hframe.clients] at hperm
    cases order with
    | nil =>
        rw [← hperm.nil_eq] at hclient
        cases hclient
    | cons first rest =>
        cases hbroadcast
        -- what was pending is owed beside the message that begins
        have howed : stamp ∈ source.owed writer :=
          (takes.owed (owed_of_pending hclient hstamp)).resolve_left holder.ne
        rw [← hframe.changes] at holder
        rw [← hframe.broken] at hhealthy
        exact disordered_of_began hdropsAfter hruns (hperm.mem_iff.mpr hclient) hhealthy howed
          holder
  · cases hbroadcast

/-- A snapshot that greets a client overtakes the diff of a change that it shows. -/
theorem disordered_of_greeted (hcoherent : Coherent d) (hdrops : DropsBroken d) {ts : ℚ}
    {rest : List Scheduled} (oldest : d.scheduled = .handler writer :: rest)
    (hhealthy : d.broken writer = false) (hstamp : stamp ∈ d.pending writer)
    (holder : stamp.Older d.changes (.snapshot d.changes.length)) :
    CanDisorder repr floatText
      (deliver (greet floatText writer ts { d with scheduled := rest })) := by
  have hungreeted : d.Ungreeted writer := by
    left
    rw [oldest, handlers_handler]
    exact List.mem_cons_self
  have hdropsAfter :=
    dropsBroken_of_move hdrops (@Move.greeted floatText d [] ts writer rest oldest)
  rcases mem_pending.mp hstamp with ⟨index, hindex, rfl⟩ | ⟨broadcast, hmem, hwriter, -⟩
  · -- the client has joined those that the waiting changes go to
    refine disordered_of_last_write hdropsAfter hhealthy ?_ holder
    refine mem_owed.mpr (.inl
      ⟨List.mem_append_right _ (List.mem_singleton_self _), index, ?_, rfl⟩)
    rw [waitingChanges, oldest] at hindex
    exact hindex
  · exact absurd hwriter (hcoherent.idle writer hungreeted broadcast hmem)

/-- **A step out of turn can end in disorder.** -/
theorem canDisorder_of_outOfTurn (hcoherent : Coherent d) (hbounded : Bounded d)
    (hdrops : DropsBroken d) {after : EventLoop}
    (hstep : d.step repr floatText action = some after) (hturn : d.inTurn action = false) :
    CanDisorder repr floatText after := by
  obtain ⟨told, writers, index, hbegins, hindex, writer, hwriter, hhealthy, stamp, hstamp,
    hpredates⟩ := behind_of_outOfTurn hturn
  obtain ⟨planned, written, hplan, -, rfl⟩ := move_of_step hstep
  cases action with
  | start order ts =>
      rw [plan] at hplan
      split at hplan
      · cases hplan
      · rename_i hruns
        split at hplan
        · cases hplan
        · rename_i task rest oldest
          have takes : Takes floatText d (.start order ts) .diff _ _ order _ := .diff oldest
          rw [begins_of_takes takes] at hbegins
          cases hbegins
          exact disordered_of_broadcast hdrops takes hplan
            (.inr (Bool.eq_false_of_not_eq_true hruns)) hwriter hhealthy hstamp
            (Stamp.older_of_predates (hbounded.takes takes) hindex hpredates)
        · rename_i target rest oldest
          rw [begins_of_handler oldest] at hbegins
          cases hbegins
          cases hplan
          rw [List.mem_singleton.mp hwriter] at hhealthy hstamp
          exact disordered_of_greeted hcoherent hdrops oldest hhealthy hstamp
            (Stamp.older_of_predates (Nat.le_refl _) hindex hpredates)
  | announce order ts =>
      rw [plan] at hplan
      split at hplan
      · rename_i hannouncing
        have takes : Takes floatText d (.announce order ts) .reaper _ _ order _ :=
          .reaper hannouncing
        rw [begins_of_takes takes] at hbegins
        cases hbegins
        exact disordered_of_broadcast hdrops takes hplan (.inl rfl) hwriter hhealthy hstamp
          (Stamp.older_of_predates (hbounded.takes takes) hindex hpredates)
      · cases hplan
  | tick order ts =>
      rw [plan] at hplan
      split at hplan
      · cases hplan
      · rename_i hruns
        split at hplan
        · cases hplan
        · have takes : Takes floatText d (.tick order ts) .ticker _ _ order _ := .ticker
          cases hbegins
          exact disordered_of_broadcast hdrops takes hplan
            (.inr (Bool.eq_false_of_not_eq_true hruns)) hwriter hhealthy hstamp
            (Stamp.older_of_predates (hbounded.takes takes) hindex hpredates)
  | accept => cases hbegins
  | event host payload now => cases hbegins
  | sweep host => cases hbegins
  | resume index drainRaises => cases hbegins
  | breaks writer => cases hbegins
  | leaves writer => cases hbegins

/-- **Order, exactly.**  When every message is begun in its turn, every client sees each
session move forward, in whatever order the drains return; and as soon as a message is begun
out of its turn, the drains can return so that some client does not. -/
theorem ordered_and_exact (repr : Json → Except PyErr String) (floatText : PyFloat → String)
    (registry : SessionRegistry) (actions : List Action) (final : EventLoop)
    (hrun : Run (step repr floatText) (fun d action => d.inTurn action = true) (fresh registry)
      actions final) :
    Ordered final ∧
      ∀ action after, final.step repr floatText action = some after →
        final.inTurn action = false → CanDisorder repr floatText after := by
  have hinOrder := inOrder_of_run hrun
  have hdrops := dropsBroken_of_run (hrun.mono fun _ _ _ => trivial)
  exact ⟨hinOrder.ordered, fun action after hstep hturn =>
    canDisorder_of_outOfTurn hinOrder.coherent hinOrder.bounded hdrops hstep hturn⟩

/-! ### Two broadcasts at once, and a snapshot too early -/

/-- While the diff of `a` is suspended at the first of two clients, that of `b` begins with
the second, and `a` changes again; its second diff begins once the first is through.  Then
`a` changes twice more. -/
def crossing : List Action :=
  [.accept, .start [] 1, .accept, .start [] 2, .event allDead (prompt "a") 3, .start [0, 1] 3,
    .event allDead (prompt "b") 4, .event allDead (prompt "a") 5, .start [1, 0] 5,
    .resume 1 false, .resume 0 false, .start [0, 1] 6, .resume 2 false,
    .event allDead (prompt "a") 7, .event allDead (prompt "a") 8]

/-- The diff of `b` begins at a client that is still owed that of `a`.  A snapshot that
begins while the last two diffs of `a` wait can get to a client before them. -/
theorem ordered_and_exact_crossing :
    ∃ final after, runActions (step (fun _ => .ok "") fun _ => "") (fresh crashed) crossing =
        some final ∧ Ordered final ∧
      (final.sent 0).map (·.stamp) = [.snapshot 0, .change 0, .change 1, .change 2] ∧
      (final.sent 1).map (·.stamp) = [.snapshot 0, .change 1, .change 0, .change 2] ∧
      final.step (fun _ => .ok "") (fun _ => "") (.tick [0, 1] 9) = some after ∧
      CanDisorder (fun _ => .ok "") (fun _ => "") after := by
  obtain ⟨final, after, hrun, hguarded, hfirst, hsecond, hstep, hturn⟩ :
      ∃ final after, runActions (step (fun _ => .ok "") fun _ => "") (fresh crashed) crossing =
          some final ∧
        runActions (fun d action => if d.inTurn action then
            d.step (fun _ => .ok "") (fun _ => "") action else none)
          (fresh crashed) crossing = some final ∧
        (final.sent 0).map (·.stamp) = [.snapshot 0, .change 0, .change 1, .change 2] ∧
        (final.sent 1).map (·.stamp) = [.snapshot 0, .change 1, .change 0, .change 2] ∧
        final.step (fun _ => .ok "") (fun _ => "") (.tick [0, 1] 9) = some after ∧
        final.inTurn (.tick [0, 1] 9) = false := ⟨_, _, rfl, rfl, rfl, rfl, rfl, rfl⟩
  obtain ⟨hordered, hexact⟩ := ordered_and_exact (fun _ => .ok "") (fun _ => "") crashed crossing
    final (run_of_guarded hguarded)
  exact ⟨final, after, hrun, hordered, hfirst, hsecond, hstep, hexact _ after hstep hturn⟩

end EventLoop

end Daemon
end SiliconOffice
