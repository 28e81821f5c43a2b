import SiliconOffice.Frontend.Consistency
import SiliconOffice.Frontend.Desks

/-!
# Snapshots that say nothing new

The daemon sends its snapshot again and again.  Each agent in it then runs through the whole
of `_upsert_agent`, which tests whether the agent is new, fading out or has begun to ask, and
synchronises the layout; `run_upsertAgent_repeat` says that all it does is to store the agent
over the one that equals it.

* `laid_history` — the layout of the `App` is that of a sequence of `sync` calls;
* `run_handleMessage_repeat` — a snapshot that repeats the agents;
* `repeats_change_nothing` — and what that means for a history.
-/

namespace SiliconOffice
namespace Frontend

open Library Python

namespace App

variable {app : App} {key : DictKey} {moment : Moment} {agents : List (String × Json)}
  {message : Json}

/-! ## The layout of a history -/

/-- The set that the layout is given: the agents and the ghosts. -/
def shownIds (app : App) : SessionIds where
  ids := app.agents.keys ++ app.ghosts.keys.filter fun sid => !app.agents.has sid
  distinct := by
    refine List.pairwise_append.mpr ⟨app.agents.distinct_keys,
      app.ghosts.distinct_keys.filter _, fun agent hagent ghost hghost => ?_⟩
    refine eq_false_of_ne_true fun hsame => ?_
    have hheld := OrderedDict.has_of_mem_keys hagent
    rw [app.agents.has_congr hsame] at hheld
    rw [List.mem_filter, hheld] at hghost
    cases hghost.2

/-- The layout comes from calls of `sync` only. -/
def Laid (app : App) : Prop :=
  ∃ calls, app.layout = Layout.afterCalls calls

theorem Laid.syncLayout (h : Laid app) (order : SetOrder) {app' : App}
    (hlayout : app'.layout = app.layout) : Laid (app'.syncLayout order) := by
  obtain ⟨calls, hcalls⟩ := h
  refine ⟨calls ++ [⟨order, app'.shownIds⟩], ?_⟩
  rw [Layout.afterCalls_concat, ← hcalls, ← hlayout]
  rfl

theorem preserved_laid (moment : Moment) :
    Preserved moment fun app => AllObjects app ∧ Laid app where
  objects _ h := h.1
  connection _ _ h := h
  upsert _ key agent previous state h hagent :=
    ⟨(preserved_allObjects moment).upsert _ key agent previous state h.1 hagent,
      h.2.syncLayout moment.order rfl⟩
  despawn app key h := by
    refine ⟨(preserved_allObjects moment).despawn _ key h.1, ?_⟩
    cases hget : app.agents.get? key with
    | none =>
        unfold despawned
        rw [hget]
        exact h.2
    | some agent =>
        rw [despawned_of_get? hget (h.1 key agent hget)]
        exact h.2.syncLayout moment.order rfl

theorem laid_updateGhosts (h : Laid app) (order : SetOrder) (now : ℚ) :
    Laid (app.updateGhosts order now) := by
  unfold updateGhosts
  dsimp only
  split
  · exact h
  · exact h.syncLayout order rfl

/-- **The layout of the frontend is one of a sequence of calls**, with all that is known
about those. -/
theorem laid_history {updates : List Update}
    (hupdates : ∀ moment message, .message moment message ∈ updates → CarriesObjects message) :
    Laid (history updates) := by
  induction updates using List.reverseRecOn with
  | nil => exact ⟨[], rfl⟩
  | append_singleton earlier update ih =>
      have hearlier : ∀ moment message, .message moment message ∈ earlier →
          CarriesObjects message :=
        fun moment message hmem => hupdates moment message (List.mem_append_left _ hmem)
      rw [history_snoc]
      cases update with
      | message moment message =>
          exact ((preserved_laid moment).handleMessage ⟨allObjects_history hearlier, ih hearlier⟩
            (hupdates moment message (List.mem_append_right _ (List.mem_singleton.mpr rfl)))).2
      | ghosts order now => exact laid_updateGhosts (ih hearlier) order now

theorem Laid.recomputeGrid (h : Laid app) : app.layout.recomputeGrid = app.layout := by
  obtain ⟨calls, hcalls⟩ := h
  have hrows := (Layout.kept_afterCalls calls).rows
  rw [← hcalls] at hrows
  exact Layout.ext rfl rfl rfl hrows.symm

/-! ## Upserting what is there -/

/-- The agent is in the asking state. -/
def asks (agent : Json) : Bool :=
  ((agent.get? "state").getD .null).isText stateAsking

/-- A state of a history: consistent, with objects for agents and a layout from `sync`. -/
structure Settled (app : App) : Prop where
  consistent : Consistent app
  objects : AllObjects app
  laid : Laid app

theorem settled_history {updates : List Update}
    (hupdates : ∀ moment message, .message moment message ∈ updates → CarriesObjects message) :
    Settled (history updates) :=
  ⟨consistent_history hupdates, allObjects_history hupdates, laid_history hupdates⟩

/-- All who are shown are seated, so that synchronising moves nobody. -/
theorem Settled.syncLayout (h : Settled app) (order : SetOrder) : app.syncLayout order = app := by
  have hsync : app.layout.sync order app.shownIds.ids = app.layout := by
    rw [Layout.sync_of_held order, h.laid.recomputeGrid]
    intro key
    rw [h.consistent.seated]
    exact (contains_shown app key).symm
  exact App.ext hsync rfl rfl rfl rfl rfl

/-- Storing another agent for a session that has one. -/
theorem Settled.store (h : Settled app) {agent current : Json}
    (hget : app.agents.get? key = some current) (hagent : agent.isObject = true) :
    Settled { app with agents := app.agents.store key agent } := by
  have hsame : ∀ other, (app.agents.store key agent).has other = app.agents.has other := by
    intro other
    rw [← OrderedDict.contains_keys, OrderedDict.keys_store_of_get? hget, OrderedDict.contains_keys]
  refine ⟨⟨?_, ?_, ?_, ?_⟩, ?_, h.laid⟩
  · intro other hother
    exact h.consistent.apart other ((hsame other).symm.trans hother)
  · intro other
    exact (h.consistent.seated other).trans (congrArg (· || _) (hsame other).symm)
  · intro other hother
    exact (hsame other).trans (h.consistent.spawning other hother)
  · intro other hother
    exact (hsame other).trans (h.consistent.asking other hother)
  · intro other value hvalue
    change (app.agents.store key agent).get? other = some value at hvalue
    rw [OrderedDict.get?_store] at hvalue
    split at hvalue
    · cases hvalue
      exact hagent
    · exact h.objects other value hvalue

/-- **An upsert that says nothing new stores the agent and does nothing else.** -/
theorem run_upsertAgent_repeat (h : Settled app) {sid : String} {agent current : Json}
    (hget : app.agents.get? (.str sid) = some current) (hagent : agent.isObject = true)
    (hasks : asks agent = true → asks current = true) :
    (upsertAgent moment (.str sid) agent).run app =
      .ok () { app with agents := app.agents.store (.str sid) agent } := by
  have hagents : app.agents.has (.str sid) = true := by
    rw [OrderedDict.has, hget]
    rfl
  have hghosts : app.ghosts.discard (.str sid) = app.ghosts := by
    have hapart := h.consistent.apart _ hagents
    exact OrderedDict.discard_of_get?_none (Option.not_isSome_iff_eq_none.mp
      (ne_true_of_eq_false hapart))
  have hedge : (((agent.get? "state").getD .null).isText stateAsking &&
      !((current.get? "state").getD .null).isText stateAsking) = false := by
    unfold asks at hasks
    cases hnew : ((agent.get? "state").getD .null).isText stateAsking with
    | false => rfl
    | true => rw [hasks hnew, Bool.not_true, Bool.and_false]
  rw [run_upsertAgent (show Json.hash (.str sid) = .ok (.str sid) from rfl), hget, Option.getD_some,
    Json.get_of_isObject (h.objects _ current hget), Json.get_of_isObject hagent]
  refine congrArg (EStateM.Result.ok ()) ?_
  unfold upserted stored
  dsimp only
  rw [hedge, hagents, hghosts]
  exact (h.store hget hagent).syncLayout moment.order

/-! ## A snapshot of what is there -/

/-- Whoever has an agent is named, and each agent named stands for one that is there and asks
only if that one does. -/
structure Repeats (agents : List (String × Json)) (app : App) : Prop where
  named : ∀ key, app.agents.has key = true → (named agents key).isSome = true
  present : ∀ item ∈ agents, ∃ current, app.agents.get? (.str item.1) = some current ∧
    (asks item.2 = true → asks current = true)

/-- The agents of a snapshot, stored one after the other. -/
def storeAll (agents : List (String × Json)) (current : OrderedDict DictKey Json) :
    OrderedDict DictKey Json :=
  agents.foldl (fun current item => current.store (.str item.1) item.2) current

theorem run_upsertAll_repeat (h : Settled app) (hdistinct : (agents.map Prod.fst).Nodup)
    (hobjects : ∀ item ∈ agents, item.2.isObject = true)
    (hpresent : ∀ item ∈ agents, ∃ current, app.agents.get? (.str item.1) = some current ∧
      (asks item.2 = true → asks current = true)) :
    (upsertAll moment agents).run app =
        .ok () { app with agents := storeAll agents app.agents } ∧
      (storeAll agents app.agents).keys = app.agents.keys := by
  induction agents generalizing app with
  | nil => exact ⟨rfl, rfl⟩
  | cons head rest ih =>
      obtain ⟨sid, agent⟩ := head
      obtain ⟨hfresh, hrest⟩ := List.nodup_cons.mp hdistinct
      obtain ⟨current, hget, hasks⟩ := hpresent (sid, agent) List.mem_cons_self
      have hagent : agent.isObject = true := hobjects (sid, agent) List.mem_cons_self
      have hothers : ∀ item ∈ rest, (DictKey.str item.1 == .str sid) = false := by
        intro item hitem
        rw [DictKey.str_beq_str]
        exact beq_false_of_ne fun hsame => hfresh (List.mem_map.mpr ⟨item, hitem, hsame⟩)
      obtain ⟨hrun, hkeys⟩ := ih (h.store hget hagent) hrest
        (fun item hitem => hobjects item (List.mem_cons_of_mem _ hitem)) fun item hitem => by
          rw [OrderedDict.get?_store, hothers item hitem]
          exact hpresent item (List.mem_cons_of_mem _ hitem)
      refine ⟨?_, hkeys.trans (OrderedDict.keys_store_of_get? hget agent)⟩
      rw [upsertAll, EStateM.run_bind, run_upsertAgent_repeat h hget hagent hasks]
      exact hrun

/-- Nobody is missing from the snapshot. -/
theorem run_despawnMissing_named {sids : List DictKey}
    (h : ∀ sid ∈ sids, (named agents sid).isSome = true) (app : App) :
    (despawnMissing moment agents sids).run app = .ok () app := by
  induction sids with
  | nil => rfl
  | cons sid rest ih =>
      have hnamed : (named agents sid).isNone = false := by
        rw [← Option.not_isSome, h sid List.mem_cons_self, Bool.not_true]
      rw [despawnMissing, if_neg (ne_true_of_eq_false hnamed)]
      exact ih fun other hother => h other (List.mem_cons_of_mem _ hother)

/-- **A snapshot that repeats the agents stores them and does nothing else.** -/
theorem run_handleMessage_repeat (h : Settled app) (hmessage : IsSnapshot message agents)
    (hrepeats : Repeats agents app) :
    (handleMessage moment message).run app =
      .ok () { app with agents := storeAll agents app.agents } := by
  obtain ⟨hrun, hkeys⟩ := @run_upsertAll_repeat app moment agents h hmessage.distinct
    hmessage.objects hrepeats.present
  rw [run_handleMessage_snapshot hmessage, run_applySnapshot_ok hrun]
  refine run_despawnMissing_named (fun sid hsid => hrepeats.named sid ?_) _
  rw [hkeys] at hsid
  exact OrderedDict.has_of_mem_keys hsid

/-- `agents == self.agents`, for the agents of a snapshot. -/
def SameAgents (agents : List (String × Json)) (app : App) : Prop :=
  ∀ key, Option.Rel (fun agent current => Json.eq agent current = true) (named agents key)
    (app.agents.get? key)

theorem asks_of_eq {agent current : Json} (h : Json.eq agent current = true)
    (hasks : asks agent = true) : asks current = true := by
  unfold asks at *
  cases hstate : agent.get? "state" with
  | none =>
      rw [hstate] at hasks
      cases hasks
  | some state =>
      obtain ⟨other, hother, hsame⟩ := Json.get?_of_eq h hstate
      rw [hstate, Option.getD_some] at hasks
      rw [hother, Option.getD_some]
      obtain ⟨text, rfl⟩ : ∃ text, state = .str text := by
        cases state with
        | str text => exact ⟨text, rfl⟩
        | _ => cases hasks
      rw [Json.eq_str hsame]
      exact hasks

theorem named_of_mem (hdistinct : (agents.map Prod.fst).Nodup) {item : String × Json}
    (hitem : item ∈ agents) : named agents (.str item.1) = some item.2 := by
  refine Assoc.lookup_of_mem ?_ hitem
  exact (List.pairwise_map.mp hdistinct).imp fun hdifferent => beq_false_of_ne hdifferent

theorem SameAgents.repeats (h : SameAgents agents app)
    (hdistinct : (agents.map Prod.fst).Nodup) : Repeats agents app := by
  constructor
  case named =>
    intro key hkey
    have hsame := h key
    rw [OrderedDict.has] at hkey
    cases hnamed : named agents key with
    | some agent => rfl
    | none =>
        rw [hnamed] at hsame
        cases hget : app.agents.get? key with
        | none =>
            rw [hget] at hkey
            cases hkey
        | some current =>
            rw [hget] at hsame
            cases hsame
  case present =>
    intro item hitem
    have hsame := h (.str item.1)
    rw [named_of_mem hdistinct hitem] at hsame
    cases hget : app.agents.get? (.str item.1) with
    | none =>
        rw [hget] at hsame
        cases hsame
    | some current =>
        rw [hget] at hsame
        cases hsame with
        | some heq => exact ⟨current, rfl, asks_of_eq heq⟩

/-! ## Settled states stay settled -/

theorem perform_message (app : App) (moment : Moment) (message : Json) :
    perform app (.message moment message) = after ((handleMessage moment message).run app) := rfl

theorem Settled.snapshot (h : Settled app) (hmessage : IsSnapshot message agents)
    (moment : Moment) : Settled (perform app (.message moment message)) := by
  have hsteady : Steady app app := ⟨h.consistent, h.objects, fun _ _ hslot => hslot⟩
  have hafter := (preserved_steady app moment).applySnapshot hsteady hmessage.objects
  have hlaid := (preserved_laid moment).applySnapshot ⟨h.objects, h.laid⟩ hmessage.objects
  rw [perform_message, run_handleMessage_snapshot hmessage]
  exact ⟨hafter.consistent, hafter.objects, hlaid.2⟩

theorem Settled.updateGhosts (h : Settled app) (order : SetOrder) (now : ℚ) :
    Settled (app.updateGhosts order now) := by
  refine ⟨consistent_updateGhosts h.consistent order now, fun key value hget => ?_,
    laid_updateGhosts h.laid order now⟩
  rw [agents_updateGhosts] at hget
  exact h.objects key value hget

/-- A snapshot leaves its own agents. -/
theorem agents_snapshot (h : Settled app) (hmessage : IsSnapshot message agents)
    (moment : Moment) (key : DictKey) :
    (perform app (.message moment message)).agents.get? key = named agents key :=
  ((heals_iff hmessage).mpr (h.objects.readable agents)).2 key

/-! ## Resends -/

/-- Nothing is different but the agents, and these are equal to what they were. -/
structure Unchanged (app app' : App) : Prop where
  sessions : app'.agents.keys = app.agents.keys
  agents : ∀ key, Option.Rel (fun agent current => Json.eq agent current = true)
    (app'.agents.get? key) (app.agents.get? key)
  ghosts : app'.ghosts = app.ghosts
  spawnStarted : app'.spawnStarted = app.spawnStarted
  askingSince : app'.askingSince = app.askingSince
  layout : app'.layout = app.layout
  connected : app'.connected = app.connected

theorem unchanged_of_sameAgents (h : Settled app) (hmessage : IsSnapshot message agents)
    (hsame : SameAgents agents app) (moment : Moment) :
    raised ((handleMessage moment message).run app) = false ∧
      Unchanged app (perform app (.message moment message)) := by
  have hrepeats := hsame.repeats hmessage.distinct
  have hrun := @run_handleMessage_repeat app moment agents message h hmessage hrepeats
  have hkeys := (@run_upsertAll_repeat app moment agents h hmessage.distinct hmessage.objects
    hrepeats.present).2
  have hagents := agents_snapshot h hmessage moment
  rw [perform_message, hrun, after_ok]
  simp only [perform_message, hrun, after_ok] at hagents
  refine ⟨rfl, hkeys, fun key => ?_, rfl, rfl, rfl, rfl, rfl⟩
  rw [hagents]
  exact hsame key

theorem storeAll_of_get? {current : OrderedDict DictKey Json}
    (h : ∀ item ∈ agents, current.get? (.str item.1) = some item.2) :
    storeAll agents current = current := by
  induction agents with
  | nil => rfl
  | cons head rest ih =>
      unfold storeAll at ih ⊢
      rw [List.foldl_cons, OrderedDict.store_of_get? (h head List.mem_cons_self)]
      exact ih fun item hitem => h item (List.mem_cons_of_mem _ hitem)

/-- The second time a snapshot changes nothing at all. -/
theorem perform_again (h : Settled app) (hmessage : IsSnapshot message agents)
    (hagents : ∀ key, app.agents.get? key = named agents key) (moment : Moment) :
    perform app (.message moment message) = app := by
  have hpresent : ∀ item ∈ agents, app.agents.get? (.str item.1) = some item.2 :=
    fun item hitem => (hagents _).trans (named_of_mem hmessage.distinct hitem)
  have hrepeats : Repeats agents app := by
    refine ⟨fun key hkey => ?_, fun item hitem => ⟨item.2, hpresent item hitem, id⟩⟩
    rw [← hagents]
    exact hkey
  rw [perform_message, run_handleMessage_repeat h hmessage hrepeats, after_ok,
    storeAll_of_get? hpresent]

/-- The message again, or the end of fade-outs. -/
def Update.Resends (message : Json) : Update → Prop
  | .message _ other => other = message
  | .ghosts _ _ => True

def Update.isGhosts : Update → Bool
  | .message _ _ => false
  | .ghosts _ _ => true

/-- Resends between the ends of fade-outs can be left out. -/
theorem foldl_resends (h : Settled app) (hmessage : IsSnapshot message agents)
    (hagents : ∀ key, app.agents.get? key = named agents key) {updates : List Update}
    (hupdates : ∀ update ∈ updates, update.Resends message) :
    updates.foldl perform app = (updates.filter Update.isGhosts).foldl perform app := by
  induction updates generalizing app with
  | nil => rfl
  | cons update rest ih =>
      have hrest : ∀ update ∈ rest, update.Resends message :=
        fun update hmem => hupdates update (List.mem_cons_of_mem _ hmem)
      cases update with
      | message moment other =>
          obtain rfl : other = message := hupdates _ List.mem_cons_self
          rw [List.foldl_cons, perform_again h hmessage hagents moment,
            List.filter_cons_of_neg Bool.false_ne_true]
          exact ih h hagents hrest
      | ghosts order now =>
          rw [List.filter_cons_of_pos rfl, List.foldl_cons, List.foldl_cons]
          refine ih (h.updateGhosts order now) (fun key => ?_) hrest
          exact (congrArg (·.get? key) (agents_updateGhosts order now app)).trans (hagents key)

/-- **A snapshot that says nothing new changes nothing.**  After any history of messages that
only carry objects: a snapshot of the agents that are there leaves everything as it is; a
second one is as good as none; and so are resends at whatever times, also while ghosts fade
out. -/
theorem repeats_change_nothing (updates : List Update)
    (hupdates : ∀ moment message, .message moment message ∈ updates → CarriesObjects message) :
    (∀ moment message agents, IsSnapshot message agents → SameAgents agents (history updates) →
      raised ((handleMessage moment message).run (history updates)) = false ∧
        Unchanged (history updates) (history (updates ++ [.message moment message]))) ∧
    (∀ moment moment' message agents, IsSnapshot message agents →
      history (updates ++ [.message moment message, .message moment' message]) =
        history (updates ++ [.message moment message])) ∧
    ∀ moment message agents later, IsSnapshot message agents →
      (∀ update ∈ later, Update.Resends message update) →
      history (updates ++ .message moment message :: later) =
        history (updates ++ .message moment message :: later.filter Update.isGhosts) := by
  have hsettled := settled_history hupdates
  refine ⟨fun moment message agents hmessage hsame => ?_,
    fun moment moment' message agents hmessage => ?_,
    fun moment message agents later hmessage hlater => ?_⟩
  · rw [history_snoc]
    exact unchanged_of_sameAgents hsettled hmessage hsame moment
  · rw [List.append_cons, history_snoc, history_snoc]
    exact perform_again (hsettled.snapshot hmessage moment) hmessage
      (agents_snapshot hsettled hmessage moment) moment'
  · unfold history
    rw [List.foldl_append, List.foldl_cons, List.foldl_append, List.foldl_cons]
    exact foldl_resends (hsettled.snapshot hmessage moment) hmessage
      (agents_snapshot hsettled hmessage moment) hlater

/-! ### A snapshot of a session that is asking -/

def askingAgents : List (String × Json) :=
  [("s1", .obj [("state", .str "asking")])]

def askingSnapshot : Json :=
  .obj [("type", .str "snapshot"), ("agents", .obj askingAgents)]

theorem isSnapshot_askingSnapshot : IsSnapshot askingSnapshot askingAgents where
  hasType := rfl
  hasAgents := rfl
  distinct := List.nodup_singleton _
  objects item hitem := by
    rw [List.mem_singleton.mp hitem]
    rfl

/-- Five seconds later. -/
def fiveLater : Moment :=
  { Moment.zero with now := 5 }

/-- The flash began when the session began to ask, and the snapshot does not restart it. -/
theorem repeats_change_nothing_asking :
    (history [.message .zero arrival, .message fiveLater askingSnapshot]).askingSince.get?
      (.str "s1") = some 0 := by
  have hsame : SameAgents askingAgents (history [.message .zero arrival]) := by
    intro key
    have hagents : (history [.message .zero arrival]).agents.get? key = named askingAgents key := by
      unfold askingAgents
      rw [named_cons]
      show List.lookup key [(DictKey.str "s1", _)] = _
      rw [Assoc.lookup_cons_ite]
      cases key == .str "s1" <;> cases key <;> rfl
    rw [hagents]
    cases hnamed : named askingAgents key with
    | none => exact .none
    | some agent =>
        rw [askingAgents, named_cons] at hnamed
        split at hnamed
        · cases hnamed
          exact .some (by decide +kernel)
        · cases key <;> cases hnamed
  have hcarries : ∀ moment message,
      Update.message moment message ∈ [.message .zero arrival] → CarriesObjects message := by
    intro moment message hmem
    obtain ⟨-, rfl⟩ := Update.message.inj (List.mem_singleton.mp hmem)
    exact carriesObjects_arrival
  have hunchanged := ((repeats_change_nothing [.message .zero arrival] hcarries).1 fiveLater
    askingSnapshot askingAgents isSnapshot_askingSnapshot hsame).2
  exact congrArg (·.get? (.str "s1")) hunchanged.askingSince

end App

end Frontend
end SiliconOffice
