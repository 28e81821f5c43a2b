import SiliconOffice.Daemon.Delivery

/-!
# Every update, once

The stamps that `Delivery` counts are a record of the run; `Labelled` says that they are
true of the messages: a message stamped with a change is the `broadcast_diff` message of
that change.  A diff that waits holds a live record, so what it tells of the session is what
the registry had in some state after the change (`Told`), if it has not been removed since.
Together they give the guarantee that a frontend relies on (`snapshot_then_every_diff`): a
snapshot first, then each later diff exactly once, whatever happens to the other clients.
-/

namespace SiliconOffice
namespace Daemon

open Library Python Common

theorem getElem?_append_of_some {changes : List Change} {index : Nat} {change : Change}
    (h : changes[index]? = some change) {news : List Change} :
    (changes ++ news)[index]? = some change := by
  rw [List.getElem?_append_left (List.getElem?_eq_some_iff.mp h).1]
  exact h

/-- The session has been removed after the change with this number. -/
def RemovedSince (changes : List Change) (index : Nat) (key : DictKey) : Prop :=
  ∃ later sid, index < later ∧ changes[later]? = some ⟨sid, .remove⟩ ∧ (key == sid) = true

theorem RemovedSince.append {changes : List Change} {index : Nat} {key : DictKey}
    (h : RemovedSince changes index key) (news : List Change) :
    RemovedSince (changes ++ news) index key := by
  obtain ⟨later, sid, hlater, hchange, hsame⟩ := h
  exact ⟨later, sid, hlater, getElem?_append_of_some hchange, hsame⟩

section

variable (held : Nat → DictKey → AgentRecord → Prop)

/-- The record that goes with a change: none with a removal; else one that was held for the
session after the change, unless it has been removed since. -/
structure Told (changes : List Change) (index : Nat) (change : Change)
    (agent : Option AgentRecord) : Prop where
  op : change.op = .remove ↔ agent = none
  record : ∀ record ∈ agent, held index change.key record ∨ RemovedSince changes index change.key

/-- A message stamped with a change is the diff of that change. -/
def Message.Describes (changes : List Change) (message : Message) : Prop :=
  ∀ index, message.stamp = .change index → ∃ change agent ts,
    changes[index]? = some change ∧ Told held changes index change agent ∧
      message.body = makeDiffMessage change.key.toJson change.op agent ts

/-- What a scheduled diff is about, and what it holds: the live record, or the last one there
was before the session was removed. -/
structure DiffTask.Labelled (d : EventLoop) (task : DiffTask) : Prop where
  change : d.changes[task.change]? = some ⟨task.key, task.op⟩
  op : task.op = .remove ↔ task.agent = none
  attached : task.attached = true →
    task.agent ≠ none ∧ d.registry.get? task.key = task.agent
  detached : task.attached = false →
    task.agent = none ∨ RemovedSince d.changes task.change task.key

end

variable {held : Nat → DictKey → AgentRecord → Prop}

theorem Told.append {changes : List Change} {index : Nat} {change : Change}
    {agent : Option AgentRecord} (h : Told held changes index change agent)
    (news : List Change) : Told held (changes ++ news) index change agent where
  op := h.op
  record record hrecord := (h.record record hrecord).imp_right fun hremoved =>
    hremoved.append news

theorem Message.Describes.append {changes : List Change} {message : Message}
    (h : message.Describes held changes) (news : List Change) :
    message.Describes held (changes ++ news) := by
  intro index hstamp
  obtain ⟨change, agent, ts, hchange, htold, hbody⟩ := h index hstamp
  exact ⟨change, agent, ts, getElem?_append_of_some hchange, htold.append news, hbody⟩

theorem Message.Describes.mono {changes : List Change} {message : Message}
    (h : message.Describes held changes) {weaker : Nat → DictKey → AgentRecord → Prop}
    (hweaker : ∀ index key record, held index key record → weaker index key record) :
    message.Describes weaker changes := by
  intro index hstamp
  obtain ⟨change, agent, ts, hchange, htold, hbody⟩ := h index hstamp
  refine ⟨change, agent, ts, hchange, ⟨htold.op, fun record hrecord => ?_⟩, hbody⟩
  exact (htold.record record hrecord).imp_left (hweaker _ _ _)

/-- A diff that waits while records are edited and sessions removed. -/
theorem DiffTask.Labelled.refresh {d next : EventLoop} {task : DiffTask} (h : task.Labelled d)
    {removes : DictKey → Prop} {news : List Change} {edited : SessionRegistry}
    (hkept : ∀ key, d.registry.get? key ≠ none → next.registry.get? key = none → removes key)
    (hedited : ∀ key, d.registry.get? key ≠ none → edited.get? key ≠ none)
    (hchanges : next.changes = d.changes ++ news)
    (hremoves : ∀ key, removes key → ∃ sid, ⟨sid, .remove⟩ ∈ news ∧ (key == sid) = true) :
    (task.refresh edited next.registry).Labelled next := by
  have hchange : next.changes[task.change]? = some ⟨task.key, task.op⟩ := by
    rw [hchanges]
    exact getElem?_append_of_some h.change
  unfold DiffTask.refresh
  cases hattached : task.attached with
  | false =>
      rw [if_neg Bool.false_ne_true]
      refine ⟨hchange, h.op, fun htrue => ?_, fun _ => ?_⟩
      · rw [hattached] at htrue
        cases htrue
      · rw [hchanges]
        exact (h.detached hattached).imp_right fun hremoved => hremoved.append news
  | true =>
      obtain ⟨hagent, hheld⟩ := h.attached hattached
      have htracked : d.registry.get? task.key ≠ none := by
        rw [hheld]
        exact hagent
      have hop : task.op ≠ .remove := mt h.op.mp hagent
      rw [if_pos rfl]
      cases hleft : next.registry.get? task.key with
      | some record =>
          exact ⟨hchange, iff_of_false hop (Option.some_ne_none record),
            fun _ => ⟨Option.some_ne_none record, hleft⟩,
            fun hfalse => absurd hfalse.symm Bool.false_ne_true⟩
      | none =>
          rw [Option.none_or]
          refine ⟨hchange, iff_of_false hop (hedited task.key htracked),
            fun htrue => absurd htrue Bool.false_ne_true, fun _ => .inr ?_⟩
          -- the removal is one of the new changes
          obtain ⟨sid, hsid, hsame⟩ := hremoves task.key (hkept task.key htracked hleft)
          obtain ⟨position, hposition⟩ := List.mem_iff_getElem?.mp hsid
          have hlt := (List.getElem?_eq_some_iff.mp h.change).1
          refine ⟨d.changes.length + position, sid, Nat.lt_add_right _ hlt, ?_, hsame⟩
          rw [hchanges, List.getElem?_append_right (Nat.le_add_right _ _),
            Nat.add_sub_cancel_left]
          exact hposition

namespace EventLoop

variable (held) in
/-- Every stamp, on a message or still to be put on one, is true. -/
structure Labelled (d : EventLoop) : Prop where
  scheduled : ∀ task, .diff task ∈ d.scheduled → task.Labelled d
  announcing : ∀ entry ∈ d.announcing, d.changes[entry.1]? = some ⟨entry.2, .remove⟩
  inflight : ∀ broadcast ∈ d.inflight, broadcast.message.Describes held d.changes
  sent : ∀ writer, ∀ message ∈ d.sent writer, message.Describes held d.changes

variable {floatText : PyFloat → String} {repr : Json → Except PyErr String}
  {d source planned : EventLoop} {action : Action} {owner : Owner} {body : Json}
  {stamp : Stamp} {order : List Writer} {written : Option (Writer × Message)}

/-- A new broadcast carries the diff of the change that it was stamped with. -/
theorem Takes.describes (h : Labelled held d)
    (hheld : ∀ index key record, index < d.changes.length →
      d.registry.get? key = some record → held index key record)
    (takes : Takes floatText d action owner body stamp order source) (serial : Option Nat) :
    Message.Describes held d.changes ⟨body, stamp, serial⟩ := by
  intro index hstamp
  cases takes with
  | @diff task rest order ts oldest =>
      cases hstamp
      have htask := h.scheduled task (by rw [oldest]; exact List.mem_cons_self)
      refine ⟨⟨task.key, task.op⟩, task.agent, ts, htask.change, ⟨htask.op, ?_⟩, rfl⟩
      intro record hrecord
      have hagent : task.agent = some record := hrecord
      cases hattached : task.attached with
      | true =>
          have hlive := (htask.attached hattached).2
          rw [hagent] at hlive
          exact .inl (hheld _ _ _ (List.getElem?_eq_some_iff.mp htask.change).1 hlive)
      | false =>
          refine .inr ((htask.detached hattached).resolve_left ?_)
          rw [hagent]
          exact Option.some_ne_none record
  | @reaper index sid rest order ts next =>
      cases hstamp
      refine ⟨⟨sid, .remove⟩, none, ts, h.announcing (index, sid) ?_, ⟨by simp, ?_⟩, rfl⟩
      · rw [next]
        exact List.mem_cons_self
      · exact fun record hrecord => by cases hrecord
  | ticker => cases hstamp

/-- Tasks that go on waiting while neither records nor changes are touched. -/
theorem labelled_of_same {next : EventLoop} (h : Labelled held d)
    (hregistry : next.registry = d.registry) (hchanges : next.changes = d.changes)
    (hscheduled : ∀ task, .diff task ∈ next.scheduled → .diff task ∈ d.scheduled)
    (hannouncing : ∀ entry ∈ next.announcing, entry ∈ d.announcing) :
    (∀ task, .diff task ∈ next.scheduled → task.Labelled next) ∧
      ∀ entry ∈ next.announcing, next.changes[entry.1]? = some ⟨entry.2, .remove⟩ := by
  refine ⟨fun task htask => ?_, fun entry hentry => ?_⟩
  · obtain ⟨hchange, hop, hattached, hdetached⟩ := h.scheduled task (hscheduled task htask)
    refine ⟨hchanges ▸ hchange, hop, ?_, hchanges ▸ hdetached⟩
    rw [hregistry]
    exact hattached
  · rw [hchanges]
    exact h.announcing entry (hannouncing entry hentry)

/-- The diffs that wait while records are edited and sessions removed. -/
theorem labelled_of_renews {next : EventLoop} (h : Labelled held d)
    {waiting : List Scheduled} {removes : DictKey → Prop} {news : List Change}
    (renews : Renews d next.registry waiting removes)
    (hchanges : next.changes = d.changes ++ news)
    (hremoves : ∀ key, removes key → ∃ sid, ⟨sid, .remove⟩ ∈ news ∧ (key == sid) = true) :
    ∀ task, .diff task ∈ waiting → task.Labelled next := by
  obtain ⟨hkept, edited, hedited, rfl⟩ := renews
  intro task htask
  obtain ⟨scheduled, hscheduled, hrefresh⟩ := List.mem_map.mp htask
  cases scheduled with
  | handler writer => cases hrefresh
  | diff earlier =>
      cases hrefresh
      exact (h.scheduled earlier hscheduled).refresh hkept hedited hchanges hremoves

theorem labelled_waiting_of_move (h : Labelled held d)
    (move : Move floatText d action planned written) :
    (∀ task, .diff task ∈ planned.scheduled → task.Labelled planned) ∧
      ∀ entry ∈ planned.announcing, planned.changes[entry.1]? = some ⟨entry.2, .remove⟩ := by
  cases move with
  | accepted =>
      refine labelled_of_same h rfl rfl (fun task htask => ?_) fun _ => id
      rcases List.mem_append.mp htask with hold | hnew
      · exact hold
      · cases List.mem_singleton.mp hnew
  | @touched _ registry waiting sameTags renews =>
      exact ⟨labelled_of_renews h renews (List.append_nil _).symm fun key hfalse => hfalse.elim,
        h.announcing⟩
  | @observed _ _ _ registry waiting task sameTags newest renews fresh =>
      refine ⟨fun other hother => ?_,
        fun entry hentry => getElem?_append_of_some (h.announcing entry hentry)⟩
      rcases List.mem_append.mp hother with hold | hnew
      · refine labelled_of_renews h renews rfl (fun key hremoves => ?_) other hold
        rw [hremoves.1]
        exact ⟨task.key, List.mem_singleton_self _, hremoves.2⟩
      · cases List.mem_singleton.mp hnew
        obtain ⟨hop, hattached, hagent⟩ := fresh
        refine ⟨?_, hop, fun htrue => ⟨?_, hagent⟩, fun hfalse => .inl ?_⟩
        · rw [newest]
          exact List.getElem?_concat_length
        · rw [hattached] at htrue
          exact Option.isSome_iff_ne_none.mp htrue
        · rw [hattached] at hfalse
          exact Option.not_isSome_iff_eq_none.mp (by rw [hfalse]; exact Bool.false_ne_true)
  | @swept _ registry waiting dead sameTags asleep renews =>
      refine ⟨labelled_of_renews h renews rfl fun key hremoves => ?_, fun entry hentry => ?_⟩
      · obtain ⟨sid, hsid, hsame⟩ := List.any_eq_true.mp hremoves
        exact ⟨sid, List.mem_map_of_mem hsid, hsame⟩
      · obtain ⟨item, hitem, rfl⟩ := List.mem_map.mp hentry
        dsimp only
        rw [List.getElem?_append_right (Nat.le_add_right _ _), Nat.add_sub_cancel_left,
          List.getElem?_map, List.mem_zipIdx_iff_getElem?.mp hitem]
        rfl
  | greeted oldest =>
      refine labelled_of_same h rfl rfl (fun task htask => ?_) fun _ => id
      rw [oldest]
      exact List.mem_cons_of_mem _ htask
  | skipped takes =>
      obtain ⟨hscheduled, hannouncing⟩ := takes.subset
      exact labelled_of_same h takes.frame.registry takes.frame.changes
        (fun _ htask => hscheduled htask) fun _ hentry => hannouncing hentry
  | began takes =>
      obtain ⟨hscheduled, hannouncing⟩ := takes.subset
      exact labelled_of_same h takes.frame.registry takes.frame.changes
        (fun _ htask => hscheduled htask) fun _ hentry => hannouncing hentry
  | broke => exact labelled_of_same h rfl rfl (fun _ => id) fun _ => id
  | left => exact labelled_of_same h rfl rfl (fun _ => id) fun _ => id
  | advanced => exact labelled_of_same h rfl rfl (fun _ => id) fun _ => id
  | finished => exact labelled_of_same h rfl rfl (fun _ => id) fun _ => id

/-- **Stamps stay true**, as long as what the registry has is what was held. -/
theorem labelled_of_move (h : Labelled held d)
    (hheld : ∀ index key record, index < d.changes.length →
      d.registry.get? key = some record → held index key record)
    (move : Move floatText d action planned written) :
    Labelled held (deliver (planned, written)) := by
  have hsame := sameButSent_deliver planned written
  obtain ⟨hscheduled, hannouncing⟩ := labelled_waiting_of_move h move
  obtain ⟨news, hnews⟩ := changes_of_move move
  constructor
  case scheduled =>
    rw [hsame.scheduled]
    intro task htask
    obtain ⟨hchange, hop, hattached, hdetached⟩ := hscheduled task htask
    refine ⟨hsame.changes ▸ hchange, hop, ?_, hsame.changes ▸ hdetached⟩
    rw [hsame.registry]
    exact hattached
  case announcing =>
    rw [hsame.announcing, hsame.changes]
    exact hannouncing
  case inflight =>
    rw [hsame.inflight, hsame.changes, hnews]
    intro broadcast hmem
    rcases mem_inflight_of_move move hmem with ⟨before, hbefore, hmessage, -⟩ |
      ⟨_, _, _, _, _, takes, _, hmessage⟩
    · rw [hmessage]
      exact (h.inflight before hbefore).append news
    · rw [hmessage]
      exact (takes.describes h hheld _).append news
  case sent =>
    rw [hsame.changes, hnews]
    intro writer message hmem
    rcases mem_sent_deliver hmem with hold | rfl
    · rw [sent_of_move move] at hold
      exact (h.sent writer message hold).append news
    · rcases written_of_move move with ⟨before, hbefore, -, rfl⟩ |
        ⟨_, _, _, _, _, takes, _, rfl⟩ | ⟨_, _, _, rfl⟩
      · exact (h.inflight before hbefore).append news
      · exact (takes.describes h hheld _).append news
      · intro index hstamp
        cases hstamp

theorem labelled_fresh (registry : SessionRegistry) : Labelled held (fresh registry) where
  scheduled _ h := absurd h List.not_mem_nil
  announcing _ h := absurd h List.not_mem_nil
  inflight _ h := absurd h List.not_mem_nil
  sent _ _ h := absurd h List.not_mem_nil

theorem Labelled.mono (h : Labelled held d) {weaker : Nat → DictKey → AgentRecord → Prop}
    (hweaker : ∀ index key record, held index key record → weaker index key record) :
    Labelled weaker d where
  scheduled := h.scheduled
  announcing := h.announcing
  inflight broadcast hmem := (h.inflight broadcast hmem).mono hweaker
  sent writer message hmem := (h.sent writer message hmem).mono hweaker

/-- In some state of the run, after the change with this number, the registry held the
record. -/
def HeldSince (repr : Json → Except PyErr String) (floatText : PyFloat → String)
    (registry : SessionRegistry) (actions : List Action) (index : Nat) (key : DictKey)
    (record : AgentRecord) : Prop :=
  ∃ earlier state, earlier <+: actions ∧
    Run (step repr floatText) (fun _ _ => True) (fresh registry) earlier state ∧
    index < state.changes.length ∧ state.registry.get? key = some record

theorem labelled_of_run {registry : SessionRegistry} {actions : List Action} {final : EventLoop}
    (hrun : Run (step repr floatText) (fun _ _ => True) (fresh registry) actions final) :
    Labelled (HeldSince repr floatText registry actions) final := by
  induction hrun with
  | nil => exact labelled_fresh registry
  | @snoc actions before after action earlier _ taken ih =>
      -- what was held in a state of the run is held in a state of the longer one
      have hlonger : Labelled (HeldSince repr floatText registry (actions ++ [action])) before :=
        ih.mono fun index key record ⟨past, state, hpast, hheld⟩ =>
          ⟨past, state, hpast.trans (List.prefix_append _ _), hheld⟩
      obtain ⟨planned, written, -, move, rfl⟩ := move_of_step taken
      exact labelled_of_move hlonger (fun index key record hindex hrecord =>
        ⟨actions, before, List.prefix_append _ _, earlier, hindex, hrecord⟩) move

/-- All that holds of the event loop whatever happens. -/
structure Reliable (d : EventLoop) : Prop where
  delivery : Delivery d
  allGreeted : AllGreeted d

theorem reliable_of_run {registry : SessionRegistry} {actions : List Action} {final : EventLoop}
    (hrun : Run (step repr floatText) (fun _ _ => True) (fresh registry) actions final) :
    Reliable final := by
  refine hrun.invariant ⟨delivery_fresh registry, allGreeted_fresh registry⟩
    fun before action after h _ hstep => ?_
  obtain ⟨planned, written, -, move, rfl⟩ := move_of_step hstep
  exact ⟨delivery_of_move h.delivery move, allGreeted_of_move h.allGreeted move⟩

/-- With nothing pending every change since the greeting has been written once. -/
theorem Delivery.copies_eq_one (h : Delivery d) (hidle : d.Idle) {writer : Writer}
    (hclient : writer ∈ d.clients) {index : Nat} (hjoined : d.joined writer ≤ index)
    (hindex : index < d.changes.length) : d.copies writer index = 1 := by
  refine (h.accounted writer hclient index hjoined hindex).ended ?_
  obtain ⟨hscheduled, hannouncing, hinflight⟩ := hidle
  rw [pendingChanges, waitingChanges, hscheduled, hannouncing, hinflight]
  exact List.not_mem_nil

/-- **No gap on connect and no loss through others.**  In every run the first message
written to a client is a snapshot of the registry as it is then, and whenever no broadcast
is pending a client that is still registered has been written the diff of every change made
after its snapshot exactly once: of a removal without a record, else with one that the
registry held for the session after the change, unless the session has been removed since. -/
theorem snapshot_then_every_diff (repr : Json → Except PyErr String)
    (floatText : PyFloat → String) (registry : SessionRegistry) (actions : List Action)
    (final : EventLoop)
    (hrun : Run (step repr floatText) (fun _ _ => True) (fresh registry) actions final) :
    (∀ action after writer, final.step repr floatText action = some after →
        final.sent writer = [] → after.sent writer ≠ [] →
        ∃ ts, after.sent writer =
          [⟨makeSnapshotMessage floatText final.registry.agents ts,
            .snapshot final.changes.length, none⟩]) ∧
      (final.Idle → ∀ writer ∈ final.clients, ∀ index change,
        final.joined writer ≤ index → final.changes[index]? = some change →
        final.copies writer index = 1 ∧
          ∀ message ∈ final.sent writer, message.stamp = .change index →
            ∃ agent ts, message.body =
                makeDiffMessage change.key.toJson change.op agent ts ∧
              Told (HeldSince repr floatText registry actions) final.changes index change
                agent) := by
  have hreliable := reliable_of_run hrun
  refine ⟨fun action after writer hstep hbefore hafter => ?_,
    fun hidle writer hclient index change hjoined hchange => ⟨?_, fun message hmem hstamp => ?_⟩⟩
  · obtain ⟨planned, written, -, move, rfl⟩ := move_of_step hstep
    exact first_write hreliable.allGreeted move hbefore hafter
  · exact hreliable.delivery.copies_eq_one hidle hclient hjoined
      (List.getElem?_eq_some_iff.mp hchange).1
  · obtain ⟨stamped, agent, ts, hstamped, htold, hbody⟩ :=
      (labelled_of_run hrun).sent writer message hmem index hstamp
    rw [hchange] at hstamped
    cases hstamped
    exact ⟨agent, ts, hbody, htold⟩

/-- Two clients connect, and the second one's socket dies while the diff of an event is on
its way to it. -/
def secondDies : List Action :=
  [.accept, .start [] 1, .accept, .start [] 2,
    .event quietHost
      (.obj [("session_id", .str "s1"), ("hook_event_name", .str "UserPromptSubmit")]) 3,
    .start [1, 0] 4, .breaks 1, .resume 0 true, .resume 0 false]

theorem secondDies_delivered :
    ∃ final, runActions (step (fun _ => .ok "") fun _ => "") (fresh .fresh) secondDies =
        some final ∧ final.clients = [0] ∧ final.copies 0 0 = 1 := by
  obtain ⟨final, hrun, hscheduled, hannouncing, hinflight, hclients, hjoined, hchanges⟩ :
      ∃ final, runActions (step (fun _ => .ok "") fun _ => "") (fresh .fresh) secondDies =
          some final ∧ scheduledChanges final.scheduled = [] ∧ final.announcing = [] ∧
        final.inflight = [] ∧ final.clients = [0] ∧ final.joined 0 = 0 ∧
        final.changes = [⟨.str "s1", .upsert⟩] := ⟨_, rfl, rfl, rfl, rfl, rfl, rfl, rfl⟩
  have hdelivered := (snapshot_then_every_diff (fun _ => .ok "") (fun _ => "") .fresh secondDies
    final (run_of_runActions hrun fun _ _ _ => trivial)).2 ⟨hscheduled, hannouncing, hinflight⟩
  refine ⟨final, hrun, hclients, (hdelivered 0 ?_ 0 ⟨.str "s1", .upsert⟩ ?_ ?_).1⟩
  · rw [hclients]
    exact List.mem_cons_self
  · rw [hjoined]
  · rw [hchanges]
    rfl

end EventLoop

end Daemon
end SiliconOffice
