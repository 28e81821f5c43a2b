import SiliconOffice.Library.LastWriter
import SiliconOffice.Pipeline.Truth

/-!
# When the frontend agrees with the registry

Broadcasts of the daemon run side by side, and a frontend handles what it is sent one message
after the other.  What it holds of a session in the end is what the last message about it said.

* `agrees_of_log` — a log that ends, for every session, with its newest version is enough;
* `converges` — when the daemon comes to rest, a client whose log never went back has such a
  log: every change since it joined has been sent to it, and those before were in its greeting;
* `tick_heals` — whatever has happened before, one periodic snapshot at rest is enough.
-/

namespace SiliconOffice
namespace Pipeline

open Library Python Common Daemon Frontend EventLoop

variable {floatText : PyFloat → String} {repr : Json → Except PyErr String}
  {d next planned : EventLoop} {action : Daemon.Action} {writer : Writer}
  {written' : Option (Writer × Message)} {app : App} {updates : List App.Update}

/-! ## What the frontend holds -/

/-- What a message tells of a session, as the frontend stores it. -/
def toldWire (report : Message → Report) (key : DictKey) (message : Message) :
    Option (Option Json) :=
  ((report message).tells key).map (Option.map AgentRecord.toWireDict)

/-- Handling the messages of a log, between ends of fade-outs. -/
theorem agents_of_updates {report : Message → Report} {log : List Message}
    (hreport : ∀ message ∈ log, Carries floatText d message (report message))
    (hmessages : App.messages updates = log.map Message.body) (happ : App.AllObjects app) :
    App.AllObjects (updates.foldl App.perform app) ∧
      ∀ key, (updates.foldl App.perform app).agents.get? key =
        written (toldWire report key) (app.agents.get? key) log := by
  induction updates generalizing app log with
  | nil =>
      obtain rfl := List.map_eq_nil_iff.mp hmessages.symm
      exact ⟨happ, fun key => rfl⟩
  | cons update rest ih =>
      cases update with
      | ghosts order now =>
          have hobjects : App.AllObjects (app.updateGhosts order now) := by
            rw [App.AllObjects, App.agents_updateGhosts]
            exact happ
          obtain ⟨hfinal, hagents⟩ := ih hreport hmessages hobjects
          refine ⟨hfinal, fun key => (hagents key).trans ?_⟩
          rw [App.agents_updateGhosts]
      | message moment body =>
          cases log with
          | nil => cases hmessages
          | cons message later =>
              obtain ⟨rfl, hlater⟩ := List.cons.inj hmessages
              have hmessage := hreport message List.mem_cons_self
              obtain ⟨ts, hbody⟩ := hmessage.body
              obtain ⟨hfinal, hagents⟩ := ih
                (fun other hother => hreport other (List.mem_cons_of_mem _ hother)) hlater
                (show App.AllObjects (after ((App.handleMessage moment message.body).run app)) by
                  rw [hbody]
                  exact allObjects_report floatText moment ts hmessage.proper happ)
              refine ⟨hfinal, fun key => (hagents key).trans ?_⟩
              rw [hbody, handle_report floatText moment ts hmessage.proper happ key]
              rfl

/-- The newest version of each session is what the registry shows. -/
theorem agrees_of_log {log : List Message} (hlog : ∀ message ∈ log, Truthful floatText d message)
    (hforward : log.Pairwise fun earlier later => ¬ later.stamp.Older d.changes earlier.stamp)
    (hnewest : ∀ key, ∃ message ∈ log,
      message.stamp.version d.changes key = some (latest key d.changes))
    (hmessages : App.messages updates = log.map Message.body) (happ : App.AllObjects app) :
    Agrees d.registry (updates.foldl App.perform app) := by
  have hreports : Nonempty Report := ⟨.remove ""⟩
  choose! report hreport using fun message hmessage => (hlog message hmessage).carries
  obtain ⟨-, hagents⟩ := agents_of_updates hreport hmessages happ
  intro key
  obtain ⟨message, hmessage, hversion, htold⟩ :=
    @exists_newest _ _ (toldWire report key) (fun message => message.stamp.version d.changes key)
      log (app.agents.get? key) (latest key d.changes)
      (fun message hmessage hspeaks => by
        have htells := (hreport message hmessage).tells key
        obtain ⟨version, hversion⟩ := Option.isSome_iff_exists.mp hspeaks
        rw [hversion] at htells
        obtain ⟨told, htold, -⟩ := htells
        rw [toldWire, htold]
        rfl)
      (fun message hmessage hsilent => by
        have htells := (hreport message hmessage).tells key
        rw [hsilent] at htells
        rw [toldWire, htells]
        rfl)
      (hforward.imp fun {earlier later} hordered older newer hlater hearlier => by
        by_contra hless
        exact hordered ⟨key, older, newer, hlater, hearlier, by omega⟩)
      (fun message _ older hversion => Stamp.version_le_latest hversion) (hnewest key)
  have htells := (hreport message hmessage).tells key
  rw [hversion] at htells
  obtain ⟨told, htells, hholds⟩ := htells
  rw [toldWire, htells] at htold
  show Option.Rel Shows (d.registry.get? key) _
  rw [hagents key, ← Option.some.inj htold]
  have hsame := hholds rfl
  generalize d.registry.get? key = held at hsame
  cases hsame with
  | none => exact .none
  | some hactivity => exact .some ((shows_toWireDict _).of_sameActivity hactivity)

/-! ## How a log begins -/

/-- The log of a client begins with the registry as it was when the client joined. -/
def Opened (d : EventLoop) : Prop :=
  ∀ writer, d.sent writer ≠ [] → ∃ greeting rest, d.sent writer = greeting :: rest ∧
    greeting.stamp = .snapshot (d.joined writer)

/-- Writing to a client that has been greeted adds to the end of its log. -/
theorem opened_of_written (h : Opened d) {target : Writer} {message : Message}
    (hsent : planned.sent = d.sent) (hjoined : planned.joined = d.joined)
    (hbroken : planned.broken = d.broken) (hgreeted : d.Greeted target) :
    Opened (EventLoop.deliver (planned, some (target, message))) := by
  intro writer hne
  rw [(sameButSent_deliver planned (some (target, message))).joined, hjoined]
  rw [EventLoop.deliver, sent_write, hsent, hbroken] at hne ⊢
  split at hne
  · rename_i htarget
    rw [if_pos htarget]
    obtain ⟨hhealthy, rfl⟩ := htarget
    rcases hgreeted with hold | hdead
    · obtain ⟨greeting, rest, hlog, hstamp⟩ := h writer hold
      exact ⟨greeting, rest ++ [message], by rw [hlog]; rfl, hstamp⟩
    · rw [hhealthy] at hdead
      cases hdead
  · rename_i htarget
    rw [if_neg htarget]
    exact h writer hne

/-- Whoever joins is greeted with the registry as it is. -/
theorem opened_of_greeting (h : Opened d) {joiner : Writer} {greeting : Message}
    (hsilent : d.sent joiner = []) (hsent : planned.sent = d.sent)
    (hjoined : planned.joined = Function.update d.joined joiner d.changes.length)
    (hstamp : greeting.stamp = .snapshot d.changes.length) :
    Opened (EventLoop.deliver (planned, some (joiner, greeting))) := by
  intro writer hne
  rw [(sameButSent_deliver planned (some (joiner, greeting))).joined, hjoined]
  rw [EventLoop.deliver, sent_write, hsent] at hne ⊢
  by_cases hjoiner : writer = joiner
  · subst hjoiner
    rw [Function.update_self, hsilent]
    rw [hsilent] at hne
    split at hne
    · rename_i htarget
      rw [if_pos htarget]
      exact ⟨greeting, [], rfl, hstamp⟩
    · exact absurd rfl hne
  · rw [Function.update_of_ne hjoiner]
    rw [if_neg fun hboth => hjoiner hboth.2] at hne ⊢
    exact h writer hne

theorem opened_of_move (h : Opened d) (hcoherent : Coherent d) (hgreeted : AllGreeted d)
    (move : Move floatText d action planned written') :
    Opened (EventLoop.deliver (planned, written')) := by
  cases move with
  | broke => exact h
  | left => exact h
  | accepted => exact h
  | touched => exact h
  | observed => exact h
  | swept => exact h
  | finished => exact h
  | skipped takes =>
      intro writer
      rw [EventLoop.deliver, takes.frame.sent, takes.frame.joined]
      exact h writer
  | began takes order =>
      exact opened_of_written h takes.frame.sent takes.frame.joined takes.frame.broken
        (hgreeted.clients _ (order.mem_iff.mp List.mem_cons_self))
  | advanced suspended remaining =>
      exact opened_of_written h rfl rfl rfl
        (hgreeted.inflight _ (mem_of_suspended suspended) _ (remaining ▸ List.mem_cons_self))
  | @greeted order ts joiner rest oldest =>
      refine opened_of_greeting h (hcoherent.silent joiner (.inl ?_)) rfl rfl rfl
      rw [oldest]
      exact List.mem_cons_self

/-! ## At rest -/

theorem exists_of_latest {key : DictKey} {changes : List Change} {index : ℕ}
    (h : latest key changes = index + 1) :
    ∃ change, changes[index]? = some change ∧ (change.key == key) = true := by
  induction changes generalizing index with
  | nil => cases h
  | cons head rest ih =>
      rw [latest] at h
      split at h
      · split at h
        · rename_i hkey
          obtain rfl : index = 0 := by omega
          exact ⟨head, rfl, hkey⟩
        · cases h
      · obtain ⟨before, hbefore⟩ : ∃ before, latest key rest = before + 1 :=
          Nat.exists_eq_succ_of_ne_zero (by assumption)
        obtain rfl : index = before + 1 := by omega
        exact ih hbefore

/-- The last change of a session is among the first so many, or it is not. -/
theorem latest_take {key : DictKey} {changes : List Change} {count : ℕ}
    (h : latest key changes ≤ count) : latest key (changes.take count) = latest key changes := by
  have hle : latest key (changes.take count) ≤ latest key changes := by
    calc latest key (changes.take count)
        ≤ latest key (changes.take count ++ changes.drop count) := latest_le_append ..
      _ = latest key changes := by rw [List.take_append_drop]
  refine Nat.le_antisymm hle ?_
  cases hlatest : latest key changes with
  | zero => exact Nat.zero_le _
  | succ index =>
      obtain ⟨change, hchange, hkey⟩ := exists_of_latest hlatest
      refine le_latest ?_ hkey
      rw [List.getElem?_take_of_lt (by omega)]
      exact hchange

/-- What is known of the daemon after any run. -/
structure Sound (floatText : PyFloat → String) (d : EventLoop) : Prop where
  honest : Honest floatText d
  reliable : Reliable d
  opened : Opened d

variable {registry : SessionRegistry} {actions : List Daemon.Action} {final : EventLoop}

theorem sound_of_run (hnamed : Named registry)
    (hrun : Run (step repr floatText) FromHooks (fresh registry) actions final) :
    Sound floatText final := by
  refine hrun.invariant
    ⟨honest_fresh hnamed, ⟨delivery_fresh registry, allGreeted_fresh registry⟩,
      fun writer hne => absurd rfl hne⟩
    fun before action next h hhooks hstep => ?_
  obtain ⟨planned, written', -, move, hnext⟩ := move_of_step hstep
  refine ⟨honest_step h.honest hhooks hstep, ?_, ?_⟩
  · rw [hnext]
    exact ⟨delivery_of_move h.reliable.delivery move,
      allGreeted_of_move h.reliable.allGreeted move⟩
  · rw [hnext]
    exact opened_of_move h.opened h.reliable.delivery.coherent h.reliable.allGreeted move

/-- At rest the log of a client has the newest version of every session. -/
theorem exists_latest (h : Sound floatText d) (hidle : d.Idle) (hclient : writer ∈ d.clients)
    (hsent : d.sent writer ≠ []) (key : DictKey) :
    ∃ message ∈ d.sent writer,
      message.stamp.version d.changes key = some (latest key d.changes) := by
  by_cases hjoined : latest key d.changes ≤ d.joined writer
  · -- the greeting has it
    obtain ⟨greeting, rest, hlog, hstamp⟩ := h.opened writer hsent
    refine ⟨greeting, by rw [hlog]; exact List.mem_cons_self, ?_⟩
    rw [hstamp]
    exact congrArg some (latest_take hjoined)
  · -- the change was made after the client had joined
    obtain ⟨index, hindex⟩ : ∃ index, latest key d.changes = index + 1 :=
      Nat.exists_eq_succ_of_ne_zero (by omega)
    obtain ⟨change, hchange, hkey⟩ := exists_of_latest hindex
    have hcopies := h.reliable.delivery.copies_eq_one hidle hclient
      (show d.joined writer ≤ index by omega) (List.getElem?_eq_some_iff.mp hchange).1
    obtain ⟨message, hmessage, hstamp⟩ := List.countP_pos_iff.mp
      (show 0 < d.copies writer index by omega)
    refine ⟨message, hmessage, ?_⟩
    rw [of_decide_eq_true hstamp, Stamp.version, hchange, hindex]
    exact if_pos hkey

/-- **The frontend converges.**  Whatever the interleaving of broadcasts, connections, sweeps and
lost clients: when the daemon is at rest, a client that has handled all it was sent agrees with
the registry, provided that its messages never went back to an older version of a session. -/
theorem converges (hnamed : Named registry)
    (hrun : Run (step repr floatText) FromHooks (fresh registry) actions final)
    (hidle : final.Idle) (hclient : writer ∈ final.clients) (hsent : final.sent writer ≠ [])
    (hforward : (final.sent writer).Pairwise fun earlier later =>
      ¬ later.stamp.Older final.changes earlier.stamp)
    (happ : App.AllObjects app)
    (hmessages : App.messages updates = (final.sent writer).map Message.body) :
    Agrees final.registry (updates.foldl App.perform app) := by
  have hsound := sound_of_run hnamed hrun
  exact agrees_of_log (hsound.honest.sent writer) hforward
    (exists_latest hsound hidle hclient hsent) hmessages happ

/-! ## A periodic snapshot -/

/-- A snapshot of the registry as it is, at the end of the log, is all that counts. -/
theorem agrees_of_last {earlier : List Message} {message : Message}
    (hlog : ∀ other ∈ earlier ++ [message], Truthful floatText d other)
    (hstamp : message.stamp = .snapshot d.changes.length) (happ : App.AllObjects app)
    (hmessages : App.messages updates = (earlier ++ [message]).map Message.body) :
    Agrees d.registry (updates.foldl App.perform app) := by
  have hreports : Nonempty Report := ⟨.remove ""⟩
  choose! report hreport using fun other hother => (hlog other hother).carries
  obtain ⟨-, hagents⟩ := agents_of_updates hreport hmessages happ
  intro key
  have htells := (hreport message (List.mem_append_right _ (List.mem_singleton_self _))).tells key
  rw [hstamp, Stamp.version, List.take_length] at htells
  obtain ⟨told, htells, hholds⟩ := htells
  show Option.Rel Shows (d.registry.get? key) _
  rw [hagents key, written_concat, toldWire, htells]
  have hsame := hholds rfl
  generalize d.registry.get? key = held at hsame
  cases hsame with
  | none => exact .none
  | some hactivity => exact .some ((shows_toWireDict _).of_sameActivity hactivity)

/-- The only broadcast goes on to its next client, or ends. -/
theorem step_resume {broadcast : Broadcast} (hannouncing : d.announcing = [])
    (hinflight : d.inflight = [broadcast]) (drainRaises : Bool) :
    d.step repr floatText (.resume 0 drainRaises) =
      match broadcast.remaining with
      | following :: rest => some (EventLoop.deliver
          ({ d with
              inflight :=
                [{ broadcast with
                    current := following
                    accepted := !d.broken following
                    remaining := rest
                    dead := d.deadAfter broadcast drainRaises }] },
            some (following, broadcast.message)))
      | [] => some
          { d with
            inflight := []
            clients := d.clients.filter fun writer =>
              decide (writer ∉ d.deadAfter broadcast drainRaises) } := by
  obtain ⟨owner, message, current, accepted, remaining, dead⟩ := broadcast
  unfold step plan reaperRuns continueBroadcast
  simp only [hannouncing, hinflight]
  cases remaining <;> rfl

/-- With nothing in flight there is nothing to go on with. -/
theorem eq_of_resumes {flags : List Bool} (hinflight : d.inflight = [])
    (hrun : runActions (step repr floatText) d (flags.map (.resume 0 ·)) = some final) :
    final = d := by
  cases flags with
  | nil =>
      cases hrun
      rfl
  | cons flag flags =>
      obtain ⟨middle, htaken, -⟩ := Option.bind_eq_some_iff.mp hrun
      have hnone : d.continueBroadcast 0 flag = none := by
        unfold continueBroadcast
        rw [hinflight]
        rfl
      unfold step plan at htaken
      dsimp only at htaken
      rw [hnone, ite_self] at htaken
      cases htaken

/-- A broadcast that is left alone reaches everyone that it does not drop. -/
theorem reaches_of_resumes {broadcast : Broadcast} {flags : List Bool}
    (hannouncing : d.announcing = []) (hinflight : d.inflight = [broadcast])
    (hturns : broadcast.remaining.Nodup)
    (hrun : runActions (step repr floatText) d (flags.map (.resume 0 ·)) = some final)
    (hover : final.inflight = []) :
    final.registry = d.registry ∧ final.changes = d.changes ∧ ∀ writer ∈ final.clients,
      writer ∈ d.clients ∧ ¬ Failing broadcast writer ∧
        final.sent writer =
          d.sent writer ++ if writer ∈ broadcast.remaining then [broadcast.message] else [] := by
  induction flags generalizing d broadcast with
  | nil =>
      cases hrun
      rw [hinflight] at hover
      cases hover
  | cons drainRaises flags ih =>
      obtain ⟨middle, htaken, hrest⟩ := Option.bind_eq_some_iff.mp hrun
      rw [step_resume hannouncing hinflight] at htaken
      cases hremaining : broadcast.remaining with
      | nil =>
          rw [hremaining] at htaken
          cases htaken
          obtain rfl := eq_of_resumes rfl hrest
          refine ⟨rfl, rfl, fun writer hwriter => ?_⟩
          obtain ⟨hclient, hkept⟩ := List.mem_filter.mp hwriter
          refine ⟨hclient, fun hfailing => ?_, (List.append_nil _).symm⟩
          exact of_decide_eq_true hkept (mem_deadAfter hfailing)
      | cons following rest =>
          rw [hremaining] at htaken hturns
          cases htaken
          have hsame := sameButSent_deliver
            { d with
              inflight :=
                [{ broadcast with
                    current := following
                    accepted := !d.broken following
                    remaining := rest
                    dead := d.deadAfter broadcast drainRaises }] }
            (some (following, broadcast.message))
          obtain ⟨hregistry, hchanges, hreached⟩ := ih (hsame.announcing.trans hannouncing)
            hsame.inflight hturns.of_cons hrest
          refine ⟨hregistry.trans hsame.registry, hchanges.trans hsame.changes,
            fun writer hwriter => ?_⟩
          obtain ⟨hclient, hkept, hsent⟩ := hreached writer hwriter
          rw [hsame.clients] at hclient
          rw [EventLoop.deliver, sent_write] at hsent
          by_cases hfollowing : writer = following
          · subst hfollowing
            have hhealthy : d.broken writer = false := by
              by_contra hbroken
              refine hkept (.inr ⟨rfl, ?_⟩)
              rw [eq_true_of_ne_false hbroken]
              rfl
            rw [if_pos ⟨hhealthy, rfl⟩, if_neg (List.nodup_cons.mp hturns).1,
              List.append_nil] at hsent
            refine ⟨hclient, fun hfailing => hkept (.inl (mem_deadAfter hfailing)), ?_⟩
            rw [if_pos List.mem_cons_self]
            exact hsent
          · rw [if_neg fun hboth => hfollowing hboth.2] at hsent
            refine ⟨hclient, fun hfailing => hkept (.inl (mem_deadAfter hfailing)), ?_⟩
            simp only [List.mem_cons, hfollowing, false_or]
            exact hsent

/-- **One periodic snapshot at rest heals everyone.**  Whatever has been sent before, in whatever
order: once the daemon has come to rest and the snapshot loop has gone through its clients, every
client that is still there agrees with the registry when it has handled all it was sent. -/
theorem tick_heals (hnamed : Named registry)
    (hrun : Run (step repr floatText) FromHooks (fresh registry) actions d) (hidle : d.Idle)
    {order : List Writer} {ts : ℚ} {flags : List Bool}
    (htick : runActions (step repr floatText) d (.tick order ts :: flags.map (.resume 0 ·)) =
      some final)
    (hover : final.inflight = []) (hclient : writer ∈ final.clients) (happ : App.AllObjects app)
    (hmessages : App.messages updates = (final.sent writer).map Message.body) :
    Agrees final.registry (updates.foldl App.perform app) := by
  have hsound := sound_of_run hnamed hrun
  obtain ⟨-, hannouncing, hinflight⟩ := hidle
  have hfinal : Honest floatText final := by
    have hall : ∀ state actions, runActions (step repr floatText) state actions = some final →
        (∀ action ∈ actions, FromHooks d action) → Honest floatText state →
        Honest floatText final := by
      intro state actions hactions hhooks hstate
      exact (run_of_runActions hactions fun action haction state => hhooks action haction).invariant
        hstate fun _ _ _ h hhooks hstep => honest_step h hhooks hstep
    refine hall d _ htick (fun action haction => ?_) hsound.honest
    rcases List.mem_cons.mp haction with rfl | hresume
    · trivial
    · obtain ⟨flag, -, rfl⟩ := List.mem_map.mp hresume
      trivial
  obtain ⟨middle, htaken, hrest⟩ := Option.bind_eq_some_iff.mp htick
  have hplan : d.plan repr floatText (.tick order ts) =
      broadcast .ticker (makeSnapshotMessage floatText d.registry.agents ts)
        (.snapshot d.changes.length) order d := by
    unfold plan reaperRuns awaits
    simp only [hannouncing, hinflight]
    rfl
  rw [step, hplan] at htaken
  unfold broadcast at htaken
  split at htaken
  · rename_i hperm
    rw [List.isPerm_iff] at hperm
    cases order with
    | nil =>
        -- there is nobody to send anything to
        cases htaken
        obtain rfl := eq_of_resumes hinflight hrest
        have hnobody : final.clients = [] := hperm.nil_eq.symm
        rw [hnobody] at hclient
        cases hclient
    | cons first rest =>
        cases htaken
        have hnodup : (first :: rest).Nodup :=
          hperm.nodup_iff.mpr hsound.reliable.delivery.coherent.clients
        have hsame := sameButSent_deliver
          { d with
            inflight := d.inflight ++ [⟨.ticker,
              ⟨makeSnapshotMessage floatText d.registry.agents ts, .snapshot d.changes.length,
                some d.begun.length⟩, first, !d.broken first, rest, []⟩]
            begun := d.begun ++ [(.ticker, first :: rest)] }
          (some (first, ⟨makeSnapshotMessage floatText d.registry.agents ts,
            .snapshot d.changes.length, some d.begun.length⟩))
        obtain ⟨hregistry, hchanges, hreached⟩ := reaches_of_resumes
          (hsame.announcing.trans hannouncing)
          (hsame.inflight.trans (by rw [hinflight]; rfl)) hnodup.of_cons hrest hover
        obtain ⟨hregistered, hkept, hsent⟩ := hreached writer hclient
        have hlast : final.sent writer = d.sent writer ++
            [⟨makeSnapshotMessage floatText d.registry.agents ts, .snapshot d.changes.length,
              some d.begun.length⟩] := by
          rw [hsent, EventLoop.deliver, sent_write]
          by_cases hfirst : writer = first
          · subst hfirst
            have hhealthy : d.broken writer = false := by
              by_contra hbroken
              refine hkept (.inr ⟨rfl, ?_⟩)
              rw [eq_true_of_ne_false hbroken]
              rfl
            rw [if_pos ⟨hhealthy, rfl⟩, if_neg (List.nodup_cons.mp hnodup).1, List.append_nil]
          · rw [if_neg fun hboth => hfirst hboth.2, if_pos]
            rw [hsame.clients] at hregistered
            exact (List.mem_cons.mp (hperm.mem_iff.mpr hregistered)).resolve_left hfirst
        have hlog := hfinal.sent writer
        rw [hlast] at hlog hmessages
        refine agrees_of_last hlog ?_ happ hmessages
        rw [hchanges, hsame.changes]
  · cases htaken

/-! ### A session that comes back while the reaper is at work -/

theorem isHookPayload_prompt (sid : String) (h : sid ≠ "") : IsHookPayload (prompt sid) := by
  refine ⟨_, rfl, ⟨sid, h, rfl⟩, fun field hfield => ?_⟩
  simp only [List.mem_cons, List.not_mem_nil, or_false] at hfield
  rcases hfield with rfl | rfl | rfl | rfl | rfl | rfl | rfl
  · exact .inr ⟨"UserPromptSubmit", rfl⟩
  · exact .inl rfl
  · exact .inl rfl
  · exact .inl rfl
  · exact .inl rfl
  · exact .inl rfl
  · exact .inl rfl

theorem named_crashed : Named EventLoop.crashed := by
  have hfresh : Named .fresh := fun _ htracked => absurd rfl htracked
  exact (hfresh.store (show "a" ≠ "" by decide) _).store (show "b" ≠ "" by decide) _

theorem messages_map {log : List Message} :
    App.messages (log.map fun message => .message .zero message.body) = log.map Message.body := by
  unfold App.messages
  rw [List.filterMap_map]
  exact congrFun (@List.filterMap_eq_map _ _ Message.body) log

/-- The removal of `b` has overtaken nothing but is written last, and the snapshot mends it. -/
theorem tick_heals_revival :
    ∃ final : EventLoop, (final.sent 0).map Message.stamp =
        [.snapshot 0, .change 0, .change 2, .change 1, .snapshot 3] ∧
      Agrees final.registry (((final.sent 0).map fun message =>
        App.Update.message .zero message.body).foldl App.perform .initial) := by
  obtain ⟨d, hrun, hscheduled, hannouncing, hinflight, final, htick, hover, hclients, hstamps⟩ :
      ∃ d, runActions (step (fun _ => .ok "") fun _ => "") (fresh EventLoop.crashed)
          (revival ++ [.resume 0 false, .resume 0 false]) = some d ∧
        scheduledChanges d.scheduled = [] ∧ d.announcing = [] ∧ d.inflight = [] ∧
        ∃ final, runActions (step (fun _ => .ok "") fun _ => "") d
            (.tick [0] 5 :: [false].map (.resume 0 ·)) = some final ∧
          final.inflight = [] ∧ final.clients = [0] ∧
          (final.sent 0).map Message.stamp =
            [.snapshot 0, .change 0, .change 2, .change 1, .snapshot 3] :=
    ⟨_, rfl, rfl, rfl, rfl, _, rfl, rfl, rfl, rfl⟩
  refine ⟨final, hstamps, tick_heals named_crashed (run_of_runActions hrun ?_)
    ⟨hscheduled, hannouncing, hinflight⟩ htick hover (hclients ▸ List.mem_cons_self)
    (fun key value hget => by cases hget) messages_map⟩
  have hfiles : ObjectFiles allDead := fun file hfile => absurd hfile List.not_mem_nil
  intro action haction state
  simp only [revival, List.mem_append, List.mem_cons, List.not_mem_nil, or_false] at haction
  rcases haction with (rfl | rfl | rfl | rfl | rfl | rfl | rfl | rfl) | rfl | rfl
  · trivial
  · trivial
  · trivial
  · trivial
  · exact ⟨isHookPayload_prompt "b" (by decide), hfiles⟩
  · trivial
  · trivial
  · trivial
  · trivial
  · trivial

end Pipeline
end SiliconOffice
