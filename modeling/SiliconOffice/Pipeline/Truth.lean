import SiliconOffice.Pipeline.Reports

/-!
# The daemon reports what is so

Along every run of the event loop, whatever overtakes what: all that has been sent, is on its
way or is still to be announced is true of the registry, unless there is news of the session
(`honest_of_run`).  A scheduled diff holds a live record; this is what keeps it true for as long
as the registry keeps the record, and after that a removal is news.
-/

namespace SiliconOffice
namespace Pipeline

open Library Python Common Daemon Frontend EventLoop

/-- What a scheduled diff is about to report. -/
structure TaskHolds (d : EventLoop) (task : DiffTask) : Prop where
  named : ∃ sid, sid ≠ "" ∧ task.key = .str sid
  change : d.changes[task.change]? = some ⟨task.key, task.op⟩
  op : task.op = .upsert ∧ task.agent.isSome = true ∨ task.op = .remove ∧ task.agent = none
  attached : task.attached = true →
    task.agent.isSome = true ∧ d.registry.get? task.key = task.agent
  holds : Holds d task.key (task.change + 1) task.agent

/-- A removal that the reaper is about to report. -/
structure EntryHolds (d : EventLoop) (entry : ℕ × DictKey) : Prop where
  named : ∃ sid, sid ≠ "" ∧ entry.2 = .str sid
  change : d.changes[entry.1]? = some ⟨entry.2, .remove⟩
  holds : Holds d entry.2 (entry.1 + 1) none

/-- All that the daemon reports, or is about to report, is so. -/
structure Honest (floatText : PyFloat → String) (d : EventLoop) : Prop where
  named : Named d.registry
  scheduled : ∀ task, .diff task ∈ d.scheduled → TaskHolds d task
  announcing : ∀ entry ∈ d.announcing, EntryHolds d entry
  inflight : ∀ broadcast ∈ d.inflight, Truthful floatText d broadcast.message
  sent : ∀ writer, ∀ message ∈ d.sent writer, Truthful floatText d message

variable {floatText : PyFloat → String} {repr : Json → Except PyErr String}
  {d next planned source : EventLoop} {action : Daemon.Action} {key : DictKey}
  {written : Option (Writer × Message)}

theorem latest_of_change {changes : List Change} {index : ℕ} {op : Op}
    (hchange : changes[index]? = some ⟨key, op⟩) : index + 1 ≤ latest key changes :=
  le_latest hchange (BEq.refl _)

theorem EntryHolds.of_follows {entry : ℕ × DictKey} (h : EntryHolds d entry)
    (hfollows : Follows d next) : EntryHolds next entry := by
  obtain ⟨news, hnews⟩ := hfollows.grows
  refine ⟨h.named, ?_, h.holds.of_follows (latest_of_change h.change) hfollows⟩
  rw [hnews]
  exact getElem?_append_of_some h.change

/-- A diff that waits while its live record is edited, or dropped. -/
theorem TaskHolds.refresh {task : DiffTask} (h : TaskHolds d task) (hfollows : Follows d next)
    {edited : SessionRegistry}
    (hedited : ∀ key, d.registry.get? key ≠ none → edited.get? key ≠ none) :
    TaskHolds next (task.refresh edited next.registry) := by
  obtain ⟨news, hnews⟩ := hfollows.grows
  have hchange : next.changes[task.change]? = some ⟨task.key, task.op⟩ := by
    rw [hnews]
    exact getElem?_append_of_some h.change
  have hversion := latest_of_change h.change
  unfold DiffTask.refresh
  cases hattached : task.attached with
  | false =>
      rw [if_neg Bool.false_ne_true]
      refine ⟨h.named, hchange, h.op, fun htrue => ?_, h.holds.of_follows hversion hfollows⟩
      rw [hattached] at htrue
      cases htrue
  | true =>
      obtain ⟨hagent, hheld⟩ := h.attached hattached
      rw [if_pos rfl]
      cases hleft : next.registry.get? task.key with
      | some record =>
          refine ⟨h.named, hchange, ?_, fun _ => ⟨rfl, hleft⟩, fun _ => ?_⟩
          · rcases h.op with ⟨hop, -⟩ | ⟨-, hnone⟩
            · exact .inl ⟨hop, rfl⟩
            · rw [hnone] at hagent
              cases hagent
          · rw [hleft]
            exact rel_refl SameActivity.refl _
      | none =>
          have htracked : d.registry.get? task.key ≠ none := by
            rw [hheld]
            exact Option.isSome_iff_ne_none.mp hagent
          refine ⟨h.named, hchange, ?_, fun htrue => absurd htrue Bool.false_ne_true,
            fun hlatest => ?_⟩
          · rcases h.op with ⟨hop, -⟩ | ⟨-, hnone⟩
            · refine .inl ⟨hop, ?_⟩
              rw [Option.none_or]
              exact Option.isSome_iff_ne_none.mpr (hedited task.key htracked)
            · rw [hnone] at hagent
              cases hagent
          · -- the removal is news, so that the diff is out of date
            dsimp only at hlatest
            have hle : latest task.key d.changes ≤ latest task.key next.changes := by
              rw [hnews]
              exact latest_le_append task.key d.changes news
            have hsame := hfollows.same task.key (by omega)
            rw [hleft] at hsame
            exact absurd ((eq_none_iff_of_rel hsame).mp rfl) htracked

theorem TaskHolds.of_same {task : DiffTask} (h : TaskHolds d task)
    (hregistry : next.registry = d.registry) (hchanges : next.changes = d.changes) :
    TaskHolds next task := by
  refine ⟨h.named, hchanges ▸ h.change, h.op, hregistry ▸ h.attached, ?_⟩
  exact h.holds.of_follows (latest_of_change h.change) (follows_of_same hregistry hchanges)

/-! ## New messages -/

theorem truthful_change {index : ℕ} {sid : String} {op : Op} {report : Report} {body : Json}
    {told : Option AgentRecord} {ts : ℚ} (serial : Option ℕ)
    (hchange : d.changes[index]? = some ⟨.str sid, op⟩)
    (hbody : body = report.body floatText ts) (hproper : report.Proper)
    (htells : ∀ key, report.tells key = if key == .str sid then some told else none)
    (hholds : Holds d (.str sid) (index + 1) told) :
    Truthful floatText d ⟨body, .change index, serial⟩ := by
  refine ⟨(List.getElem?_eq_some_iff.mp hchange).1, report, ⟨ts, hbody⟩, hproper,
    fun key => ?_⟩
  have hversion : Stamp.version d.changes key (.change index) =
      if DictKey.str sid == key then some (index + 1) else none := by
    show (d.changes[index]?.bind fun entry =>
      if entry.key == key then some (index + 1) else none) = _
    rw [hchange]
    rfl
  rw [hversion, htells key]
  cases hkey : DictKey.str sid == key with
  | true =>
      obtain rfl := DictKey.beq_str_iff.mp (BEq.symm hkey)
      exact ⟨told, if_pos (BEq.refl _), hholds⟩
  | false =>
      rw [if_neg Bool.false_ne_true]
      refine if_neg fun hsame => ?_
      rw [BEq.symm hsame] at hkey
      cases hkey

theorem truthful_snapshot (hnamed : Named d.registry) (ts : ℚ) (serial : Option ℕ) :
    Truthful floatText d ⟨makeSnapshotMessage floatText d.registry.agents ts,
      .snapshot d.changes.length, serial⟩ := by
  refine ⟨Nat.le_refl _, .snapshot d.registry, ⟨ts, rfl⟩, hnamed, fun key => ?_⟩
  exact ⟨d.registry.get? key, rfl, fun _ => rel_refl SameActivity.refl _⟩

/-- The message of a new broadcast. -/
theorem Honest.takes (h : Honest floatText d) {owner : Owner} {body : Json} {stamp : Stamp}
    {order : List Writer} (takes : Takes floatText d action owner body stamp order source)
    (serial : Option ℕ) : Truthful floatText d ⟨body, stamp, serial⟩ := by
  cases takes with
  | @diff task rest order ts oldest =>
      have htask := h.scheduled task (by rw [oldest]; exact List.mem_cons_self)
      obtain ⟨sid, hsid, hkey⟩ := htask.named
      have hchange := htask.change
      have hholds := htask.holds
      rw [hkey] at hchange hholds ⊢
      rcases htask.op with ⟨hop, hagent⟩ | ⟨hop, hagent⟩
      · obtain ⟨record, hrecord⟩ := Option.isSome_iff_exists.mp hagent
        rw [hop, hrecord]
        rw [hrecord] at hholds
        exact truthful_change serial hchange (rfl : _ = (Report.upsert sid record).body _ ts) hsid
          (fun key => rfl) hholds
      · rw [hop, hagent]
        rw [hagent] at hholds
        exact truthful_change serial hchange (rfl : _ = (Report.remove sid).body _ ts) hsid
          (fun key => rfl) hholds
  | @reaper index sid rest order ts announced =>
      have hentry := h.announcing (index, sid) (by rw [announced]; exact List.mem_cons_self)
      obtain ⟨text, htext, hkey⟩ := hentry.named
      have hchange := hentry.change
      have hholds := hentry.holds
      dsimp only at hkey hchange hholds
      rw [hkey] at hchange hholds ⊢
      exact truthful_change serial hchange (rfl : _ = (Report.remove text).body _ ts) htext
        (fun key => rfl) hholds
  | @ticker order ts => exact truthful_snapshot h.named ts serial

/-! ## What happens to the registry -/

/-- Every other session looks as before. -/
theorem follows_of_news {news : List Change} (hchanges : next.changes = d.changes ++ news)
    (hsame : ∀ key, (∀ change ∈ news, (change.key == key) = false) →
      Option.Rel SameActivity (d.registry.get? key) (next.registry.get? key)) :
    Follows d next := by
  refine ⟨⟨news, hchanges⟩, fun key hlatest => hsame key fun change hchange => ?_⟩
  refine eq_false_of_ne_true fun hkey => ?_
  -- a change of the session would be newer than any before it
  obtain ⟨index, hindex⟩ := List.mem_iff_getElem?.mp hchange
  have hat : (d.changes ++ news)[d.changes.length + index]? = some change := by
    rw [List.getElem?_append_right (Nat.le_add_right _ _), Nat.add_sub_cancel_left, hindex]
  have hnew := le_latest hat hkey
  have hold := latest_le_length key d.changes
  rw [hchanges] at hlatest
  omega

/-- The registry and the diffs that wait after an event or a sweep. -/
structure Renewed (d next : EventLoop) : Prop where
  follows : Follows d next
  named : Named next.registry
  scheduled : ∀ task, .diff task ∈ next.scheduled → TaskHolds next task
  announcing : ∀ entry ∈ next.announcing, EntryHolds next entry

theorem Honest.waiting (h : Honest floatText d) (hfollows : Follows d next)
    {edited : SessionRegistry}
    (hedited : ∀ key, d.registry.get? key ≠ none → edited.get? key ≠ none) {task : DiffTask}
    (htask : .diff task ∈ d.scheduled.map (·.refresh edited next.registry)) :
    TaskHolds next task := by
  obtain ⟨scheduled, hscheduled, hrefresh⟩ := List.mem_map.mp htask
  cases scheduled with
  | handler writer => cases hrefresh
  | diff earlier =>
      cases hrefresh
      exact (h.scheduled earlier hscheduled).refresh hfollows hedited

/-- The registry has changed in ways that do not show. -/
theorem Honest.renewed_silent (h : Honest floatText d) {edited left : SessionRegistry}
    (hedited : ∀ key, d.registry.get? key ≠ none → edited.get? key ≠ none)
    (hsame : OrderedDict.Related SameActivity d.registry.agents left.agents) :
    Renewed d { d with
      registry := left
      scheduled := d.scheduled.map (·.refresh edited left) } := by
  have hfollows : Follows d { d with
      registry := left
      scheduled := d.scheduled.map (·.refresh edited left) } :=
    ⟨⟨[], (List.append_nil _).symm⟩, fun key _ => hsame key⟩
  exact ⟨hfollows, h.named.of_related hsame, fun task => h.waiting hfollows hedited,
    fun entry hentry => (h.announcing entry hentry).of_follows hfollows⟩

/-- One session has changed, and its diff is scheduled. -/
theorem Honest.renewed_change (h : Honest floatText d) {edited left : SessionRegistry}
    (hedited : ∀ key, d.registry.get? key ≠ none → edited.get? key ≠ none) {sid : String}
    (hsid : sid ≠ "") {op : Op} {agent : Option AgentRecord}
    (hop : op = .upsert ∧ agent.isSome = true ∨ op = .remove ∧ agent = none)
    (hleft : ∀ key, left.get? key = if key == .str sid then agent else d.registry.get? key) :
    Renewed d { d with
      registry := left
      scheduled := d.scheduled.map (·.refresh edited left) ++
        [.diff ⟨d.changes.length, .str sid, op, agent, agent.isSome⟩]
      changes := d.changes ++ [⟨.str sid, op⟩] } := by
  have hfollows : Follows d { d with
      registry := left
      scheduled := d.scheduled.map (·.refresh edited left) ++
        [.diff ⟨d.changes.length, .str sid, op, agent, agent.isSome⟩]
      changes := d.changes ++ [⟨.str sid, op⟩] } := by
    refine follows_of_news rfl fun key hkey => ?_
    have hother := hkey _ (List.mem_singleton_self _)
    dsimp only
    rw [hleft, if_neg]
    · exact rel_refl SameActivity.refl _
    · intro hsame
      rw [BEq.symm hsame] at hother
      cases hother
  have hnow : left.get? (.str sid) = agent := by rw [hleft, if_pos (BEq.refl _)]
  refine ⟨hfollows, fun key htracked => ?_, fun task htask => ?_,
    fun entry hentry => (h.announcing entry hentry).of_follows hfollows⟩
  · dsimp only at htracked
    rw [hleft] at htracked
    split at htracked
    · rename_i hsame
      exact ⟨sid, hsid, DictKey.beq_str_iff.mp hsame⟩
    · exact h.named key htracked
  · rcases List.mem_append.mp htask with hold | hnew
    · exact h.waiting hfollows hedited hold
    · cases List.mem_singleton.mp hnew
      refine ⟨⟨sid, hsid, rfl⟩, List.getElem?_concat_length, hop,
        fun hattached => ⟨hattached, hnow⟩, fun _ => ?_⟩
      dsimp only
      rw [hnow]
      exact rel_refl SameActivity.refl _

theorem Honest.renewed_observe (h : Honest floatText d) {host : Host} {payload : Json} {now : ℚ}
    (hpayload : IsHookPayload payload) (hfiles : ObjectFiles host) :
    Renewed d (d.observe repr host payload now) := by
  obtain ⟨call, left, hrun, hobserved⟩ := @onEvent_observed repr host now d.registry payload
    hpayload hfiles
  have hedited : ∀ key, d.registry.get? key ≠ none →
      (editedBy repr payload now d.registry).get? key ≠ none := fun key => editedBy_tracked
  unfold observe
  dsimp only
  rw [hrun]
  cases hobserved with
  | silent hsame => exact h.renewed_silent hedited hsame
  | upserted sid record hsid =>
      exact h.renewed_change hedited hsid (.inl ⟨rfl, rfl⟩) fun key =>
        SessionRegistry.get?_store ..
  | removed sid hsid =>
      exact h.renewed_change hedited hsid (.inr ⟨rfl, rfl⟩) fun key =>
        SessionRegistry.get?_discard ..

theorem Honest.renewed_reap (h : Honest floatText d) (host : Host) :
    Renewed d (d.reap host) := by
  have hedited : ∀ key, d.registry.get? key ≠ none →
      (after ((SessionRegistry.resolvePendingIdentities host).run d.registry)).get? key ≠ none :=
    fun key => resolved_tracked
  unfold reap
  dsimp only
  cases hrun : (SessionRegistry.sweep host).run d.registry with
  | error exception left =>
      exact h.renewed_silent hedited
        (sameActivity_of_related (SessionRegistry.related_of_sweep_raised hrun))
  | ok dead left =>
      have hkept := SessionRegistry.sweep_none_iff hrun
      have hfollows : Follows d { d with
          registry := left
          scheduled := d.scheduled.map (·.refresh
            (after ((SessionRegistry.resolvePendingIdentities host).run d.registry)) left)
          announcing := dead.zipIdx.map fun item => (d.changes.length + item.2, item.1)
          changes := d.changes ++ dead.map (⟨·, .remove⟩) } := by
        refine follows_of_news rfl fun key hkey => ?_
        obtain ⟨resolvedRegistry, hrelated, hleft⟩ := SessionRegistry.related_of_sweep hrun
        dsimp only
        rw [hleft, SessionRegistry.get?_foldl_discard, if_neg]
        · exact sameActivity_of_related hrelated key
        · intro hany
          obtain ⟨sid, hsid, hsame⟩ := List.any_eq_true.mp hany
          have hother := hkey ⟨sid, .remove⟩ (List.mem_map_of_mem hsid)
          rw [BEq.symm hsame] at hother
          cases hother
      refine ⟨hfollows, h.named.of_kept fun key htracked huntracked =>
        htracked ((hkept key).mpr (.inl huntracked)), fun task => h.waiting hfollows hedited,
        fun entry hentry => ?_⟩
      obtain ⟨item, hitem, rfl⟩ := List.mem_map.mp hentry
      have hdead : item.1 ∈ dead := List.fst_mem_of_mem_zipIdx hitem
      refine ⟨h.named item.1 (SessionRegistry.sweep_reports_tracked hrun hdead), ?_, fun _ => ?_⟩
      · dsimp only
        rw [List.getElem?_append_right (Nat.le_add_right _ _), Nat.add_sub_cancel_left,
          List.getElem?_map, List.mem_zipIdx_iff_getElem?.mp hitem]
        rfl
      · have hgone : left.get? item.1 = none :=
          (hkept item.1).mpr (.inr (List.any_eq_true.mpr ⟨item.1, hdead, BEq.refl _⟩))
        show Option.Rel SameActivity none (left.get? item.1)
        rw [hgone]
        exact .none

/-! ## Steps -/

/-- Datagrams come from the emitter, and session files that can be read hold objects. -/
def FromHooks (_ : EventLoop) : Daemon.Action → Prop
  | .event host payload _ => IsHookPayload payload ∧ ObjectFiles host
  | _ => True

/-- A step that is about messages only: it takes from what waits and adds nothing. -/
structure Ahead (d planned : EventLoop) : Prop where
  registry : planned.registry = d.registry
  changes : planned.changes = d.changes
  scheduled : ∀ task, .diff task ∈ planned.scheduled → .diff task ∈ d.scheduled
  announcing : planned.announcing ⊆ d.announcing

theorem ahead_of_takes {owner : Owner} {body : Json} {stamp : Stamp} {order : List Writer}
    (takes : Takes floatText d action owner body stamp order source) : Ahead d source := by
  obtain ⟨hscheduled, hannouncing⟩ := takes.subset
  exact ⟨takes.frame.registry, takes.frame.changes, fun _ htask => hscheduled htask, hannouncing⟩

theorem ahead_of_broadcast {owner : Owner} {body : Json} {stamp : Stamp} {order : List Writer}
    (takes : Takes floatText d action owner body stamp order source)
    (h : broadcast owner body stamp order source = some (planned, written)) :
    Ahead d planned := by
  have hsource := ahead_of_takes takes
  unfold broadcast at h
  split at h
  · cases order with
    | nil =>
        cases h
        exact hsource
    | cons first rest =>
        cases h
        exact ⟨hsource.registry, hsource.changes, hsource.scheduled, hsource.announcing⟩
  · cases h

theorem ahead_of_continueBroadcast {index : ℕ} {drainRaises : Bool}
    (h : d.continueBroadcast index drainRaises = some (planned, written)) : Ahead d planned := by
  unfold continueBroadcast at h
  split at h
  · cases h
  · dsimp only at h
    split at h <;> cases h <;> exact ⟨rfl, rfl, fun task => id, List.Subset.refl _⟩

/-- A step is an event, a sweep, or about messages only. -/
theorem kind_of_plan (h : d.plan repr floatText action = some (planned, written)) :
    (∃ host payload now, action = .event host payload now ∧
      planned = d.observe repr host payload now) ∨
    (∃ host, action = .sweep host ∧ planned = d.reap host) ∨ Ahead d planned := by
  cases action with
  | breaks writer =>
      cases h
      exact .inr (.inr ⟨rfl, rfl, fun task => id, List.Subset.refl _⟩)
  | announce order ts =>
      rw [plan] at h
      split at h
      · rename_i hannouncing
        have takes := @Takes.reaper floatText d _ _ _ order ts hannouncing
        exact .inr (.inr (ahead_of_broadcast takes h))
      · cases h
  | accept =>
      rw [plan] at h
      split at h
      · cases h
      · cases h
        refine .inr (.inr ⟨rfl, rfl, fun task htask => ?_, List.Subset.refl _⟩)
        rcases List.mem_append.mp htask with hold | hnew
        · exact hold
        · cases List.mem_singleton.mp hnew
  | event host payload now =>
      rw [plan] at h
      split at h
      · cases h
      · cases h
        exact .inl ⟨host, payload, now, rfl, rfl⟩
  | start order ts =>
      rw [plan] at h
      split at h
      · cases h
      · split at h
        · cases h
        · rename_i hscheduled
          have takes := @Takes.diff floatText d _ _ order ts hscheduled
          exact .inr (.inr (ahead_of_broadcast takes h))
        · rename_i hscheduled
          cases h
          refine .inr (.inr ⟨rfl, rfl, fun task htask => ?_, List.Subset.refl _⟩)
          rw [hscheduled]
          exact List.mem_cons_of_mem _ htask
  | sweep host =>
      rw [plan] at h
      split at h
      · cases h
      · split at h
        · cases h
        · cases h
          exact .inr (.inl ⟨host, rfl, rfl⟩)
  | tick order ts =>
      rw [plan] at h
      split at h
      · cases h
      · split at h
        · cases h
        · exact .inr (.inr (ahead_of_broadcast .ticker h))
  | resume index drainRaises =>
      rw [plan] at h
      split at h
      · cases h
      · exact .inr (.inr (ahead_of_continueBroadcast h))
  | leaves writer =>
      rw [plan] at h
      split at h
      · cases h
      · split at h
        · cases h
          exact .inr (.inr ⟨rfl, rfl, fun task => id, List.Subset.refl _⟩)
        · cases h

theorem Honest.renewed (h : Honest floatText d) (hhooks : FromHooks d action)
    (hplan : d.plan repr floatText action = some (planned, written)) : Renewed d planned := by
  rcases kind_of_plan hplan with ⟨host, payload, now, rfl, rfl⟩ | ⟨host, rfl, rfl⟩ | hahead
  · exact h.renewed_observe hhooks.1 hhooks.2
  · exact h.renewed_reap host
  · have hfollows := follows_of_same hahead.registry hahead.changes
    refine ⟨hfollows, ?_, fun task htask => ?_, fun entry hentry => ?_⟩
    · rw [hahead.registry]
      exact h.named
    · exact (h.scheduled task (hahead.scheduled task htask)).of_same hahead.registry
        hahead.changes
    · exact (h.announcing entry (hahead.announcing hentry)).of_follows hfollows

/-- **Every step keeps the daemon honest.** -/
theorem honest_step (h : Honest floatText d) (hhooks : FromHooks d action)
    (hstep : d.step repr floatText action = some next) : Honest floatText next := by
  obtain ⟨planned, written, hplan, move, rfl⟩ := move_of_step hstep
  have hrenewed := h.renewed hhooks hplan
  have hsame := sameButSent_deliver planned written
  have hfollows : Follows d (EventLoop.deliver (planned, written)) := by
    obtain ⟨hgrows, hlooks⟩ := hrenewed.follows
    refine ⟨?_, fun key => ?_⟩
    · rw [hsame.changes]
      exact hgrows
    · rw [hsame.changes, hsame.registry]
      exact hlooks key
  refine ⟨?_, fun task htask => ?_, fun entry hentry => ?_, fun broadcast hmem => ?_,
    fun writer message hmem => ?_⟩
  · rw [hsame.registry]
    exact hrenewed.named
  · rw [hsame.scheduled] at htask
    exact (hrenewed.scheduled task htask).of_same hsame.registry hsame.changes
  · rw [hsame.announcing] at hentry
    exact (hrenewed.announcing entry hentry).of_follows
      (follows_of_same hsame.registry hsame.changes)
  · rw [hsame.inflight] at hmem
    rcases mem_inflight_of_move move hmem with ⟨before, hbefore, hmessage, -⟩ |
      ⟨owner, body, stamp, first, source, takes, -, hmessage⟩
    · rw [hmessage]
      exact (h.inflight before hbefore).of_follows hfollows
    · rw [hmessage]
      exact (h.takes takes _).of_follows hfollows
  · rcases mem_sent_deliver hmem with hold | rfl
    · rw [sent_of_move move] at hold
      exact (h.sent writer message hold).of_follows hfollows
    · rcases written_of_move move with ⟨before, hbefore, -, rfl⟩ |
        ⟨owner, body, stamp, rest, source, takes, -, rfl⟩ | ⟨rest, ts, -, rfl⟩
      · exact (h.inflight before hbefore).of_follows hfollows
      · exact (h.takes takes _).of_follows hfollows
      · exact (truthful_snapshot h.named ts none).of_follows hfollows

theorem honest_fresh {registry : SessionRegistry} (hnamed : Named registry) :
    Honest floatText (fresh registry) where
  named := hnamed
  scheduled _ h := absurd h List.not_mem_nil
  announcing _ h := absurd h List.not_mem_nil
  inflight _ h := absurd h List.not_mem_nil
  sent _ _ h := absurd h List.not_mem_nil

variable {registry : SessionRegistry} {actions : List Daemon.Action} {final : EventLoop}

/-- **Whatever the order of the steps, the daemon reports what is so.** -/
theorem honest_of_run (hnamed : Named registry)
    (hrun : Run (step repr floatText) FromHooks (fresh registry) actions final) :
    Honest floatText final :=
  hrun.invariant (honest_fresh hnamed) fun _ _ _ h hhooks hstep => honest_step h hhooks hstep

/-! ### A prompt and its diff -/

/-- A client connects, and a session begins to work. -/
def promptActions : List Daemon.Action :=
  [.accept, .start [] 1, .event crashed (hookPayload "s1" "UserPromptSubmit" "") 2, .start [0] 3,
    .resume 0 false]

theorem run_promptActions :
    ∃ final, Run (step (fun _ => .ok "") fun _ => "") FromHooks (fresh .fresh) promptActions
        final ∧ final.Idle ∧ final.clients = [0] ∧ final.joined 0 = 0 ∧
      final.changes = [⟨.str "s1", .upsert⟩] ∧
      (final.sent 0).map Message.stamp = [.snapshot 0, .change 0] ∧
      ∃ greeting diff, (final.sent 0).map Message.body = [greeting, diff] ∧
        greeting.get? "type" = some (.str "snapshot") ∧
        diff.get? "type" = some (.str "diff") := by
  obtain ⟨final, hrun, hscheduled, hannouncing, hinflight, hclients, hjoined, hchanges, hstamps,
      hbodies⟩ :
      ∃ final, runActions (step (fun _ => .ok "") fun _ => "") (fresh .fresh) promptActions =
          some final ∧ scheduledChanges final.scheduled = [] ∧ final.announcing = [] ∧
        final.inflight = [] ∧ final.clients = [0] ∧ final.joined 0 = 0 ∧
        final.changes = [⟨.str "s1", .upsert⟩] ∧
        (final.sent 0).map Message.stamp = [.snapshot 0, .change 0] ∧
        ∃ greeting diff, (final.sent 0).map Message.body = [greeting, diff] ∧
          greeting.get? "type" = some (.str "snapshot") ∧
          diff.get? "type" = some (.str "diff") :=
    ⟨_, rfl, rfl, rfl, rfl, rfl, rfl, rfl, rfl, _, _, rfl, rfl, rfl⟩
  refine ⟨final, run_of_runActions hrun ?_, ⟨hscheduled, hannouncing, hinflight⟩, hclients, hjoined,
    hchanges, hstamps, hbodies⟩
  intro action haction state
  simp only [promptActions, List.mem_cons, List.not_mem_nil, or_false] at haction
  rcases haction with rfl | rfl | rfl | rfl | rfl
  · trivial
  · trivial
  · exact ⟨isHookPayload_hookPayload (by decide) _ _, objectFiles_ofFiles _ _⟩
  · trivial
  · trivial

theorem named_fresh : Named .fresh := fun _ htracked => absurd rfl htracked

theorem honest_of_run_prompt :
    ∃ final, (final.sent 0).map Message.stamp = [.snapshot 0, .change 0] ∧
      Honest (fun _ => "") final := by
  obtain ⟨final, hrun, -, -, -, -, hstamps, -⟩ := run_promptActions
  exact ⟨final, hstamps, honest_of_run named_fresh hrun⟩

end Pipeline
end SiliconOffice
