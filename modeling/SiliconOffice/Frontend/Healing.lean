import Mathlib.Data.List.Nodup
import SiliconOffice.Frontend.App

/-!
# Snapshots

A snapshot upserts every agent that it names and despawns every other one.  The agents
that it replaces are read on the way, so a value that is no object stops it: the value was
stored by an earlier message whose handling raised right after the assignment, and it
stays there, since every later upsert of that session raises before its own assignment.

* `heals_iff` — when one snapshot does its work, from any state whatever;
* `snapshots_heal_iff` — the same along every history of the frontend;
* `allObjects_history` — messages that only carry objects never get there.
-/

namespace SiliconOffice
namespace Frontend

open Library Python

namespace App

/-! ## The two loops -/

theorem named_congr (agents : List (String × Json)) {a b : DictKey} (h : (a == b) = true) :
    named agents a = named agents b := by
  -- a text is the same key as itself only, and no other key names a member
  cases a with
  | str sid => rw [DictKey.beq_str_iff.mp (BEq.symm h)]
  | null => cases b with
    | str sid => cases DictKey.beq_str_iff.mp h
    | _ => rfl
  | bool value => cases b with
    | str sid => cases DictKey.beq_str_iff.mp h
    | _ => rfl
  | int value => cases b with
    | str sid => cases DictKey.beq_str_iff.mp h
    | _ => rfl
  | float value => cases b with
    | str sid => cases DictKey.beq_str_iff.mp h
    | _ => rfl

theorem named_cons (sid : String) (agent : Json) (rest : List (String × Json)) (key : DictKey) :
    named ((sid, agent) :: rest) key = if key == .str sid then some agent else named rest key := by
  cases key with
  | str text =>
      rw [DictKey.str_beq_str]
      exact Assoc.lookup_cons_ite text (sid, agent) rest
  | null => rfl
  | bool value => rfl
  | int value => rfl
  | float value => cases value <;> rfl

theorem named_eq_none {agents : List (String × Json)} {sid : String}
    (h : sid ∉ agents.map Prod.fst) : named agents (.str sid) = none := by
  induction agents with
  | nil => rfl
  | cons head rest ih =>
      obtain ⟨name, agent⟩ := head
      rw [List.map_cons, List.mem_cons, not_or] at h
      rw [named_cons, DictKey.str_beq_str, beq_false_of_ne h.1]
      exact ih h.2

variable {moment : Moment} {agents : List (String × Json)} {app : App}

/-- Between objects the first loop goes through: what it names is there afterwards. -/
theorem run_upsertAll_ok (hdistinct : (agents.map Prod.fst).Nodup)
    (hobjects : ∀ item ∈ agents, item.2.isObject = true)
    (hprevious : ∀ item ∈ agents, ∀ value,
      app.agents.get? (.str item.1) = some value → value.isObject = true) :
    ∃ app', (upsertAll moment agents).run app = .ok () app' ∧
      ∀ key, app'.agents.get? key = (named agents key).or (app.agents.get? key) := by
  induction agents generalizing app with
  | nil =>
      refine ⟨app, rfl, fun key => ?_⟩
      cases key <;> rfl
  | cons head rest ih =>
      obtain ⟨sid, agent⟩ := head
      obtain ⟨hfresh, hrestDistinct⟩ := List.nodup_cons.mp hdistinct
      have hagent : agent.isObject = true := hobjects (sid, agent) List.mem_cons_self
      obtain ⟨middle, hmiddle, hstored⟩ := @run_upsertAgent_ok moment (.str sid) agent (.str sid)
        app rfl (hprevious (sid, agent) List.mem_cons_self) hagent
      -- the agent just stored is an object, every other one is as before
      have hrestPrevious : ∀ item ∈ rest, ∀ value,
          middle.agents.get? (.str item.1) = some value → value.isObject = true := by
        intro item hitem value hget
        rw [hstored, OrderedDict.get?_store] at hget
        split at hget
        · cases hget
          exact hagent
        · exact hprevious item (List.mem_cons_of_mem _ hitem) value hget
      obtain ⟨final, hfinal, hget⟩ := ih hrestDistinct
        (fun item hitem => hobjects item (List.mem_cons_of_mem _ hitem)) hrestPrevious
      refine ⟨final, ?_, fun key => ?_⟩
      · unfold upsertAll
        rw [EStateM.run_bind, hmiddle]
        exact hfinal
      · rw [hget key, hstored, OrderedDict.get?_store, named_cons]
        cases hsame : key == .str sid with
        | false => rfl
        | true =>
            -- the rest of the snapshot does not name this session again
            rw [DictKey.beq_str_iff.mp hsame, named_eq_none hfresh]
            rfl

/-- The first loop does not get past an agent that is no object. -/
theorem raised_upsertAll (hobjects : ∀ item ∈ agents, item.2.isObject = true)
    {item : String × Json} (hitem : item ∈ agents) {value : Json}
    (hget : app.agents.get? (.str item.1) = some value) (hvalue : value.isObject = false) :
    raised ((upsertAll moment agents).run app) = true := by
  induction agents generalizing app with
  | nil => exact absurd hitem List.not_mem_nil
  | cons head rest ih =>
      obtain ⟨sid, agent⟩ := head
      unfold upsertAll
      rw [EStateM.run_bind]
      by_cases hprevious : ∀ other, app.agents.get? (.str sid) = some other →
          other.isObject = true
      · obtain ⟨middle, hmiddle, hstored⟩ := @run_upsertAgent_ok moment (.str sid) agent
          (.str sid) app rfl hprevious (hobjects (sid, agent) List.mem_cons_self)
        rw [hmiddle]
        have hother : (DictKey.str item.1 == .str sid) = false := by
          refine eq_false_of_ne_true fun hsame => ?_
          rw [app.agents.get?_congr hsame] at hget
          rw [hprevious value hget] at hvalue
          cases hvalue
        have hrest : item ∈ rest := by
          rcases List.mem_cons.mp hitem with rfl | hrest
          · rw [BEq.refl] at hother
            cases hother
          · exact hrest
        refine ih (fun other h => hobjects other (List.mem_cons_of_mem _ h)) hrest ?_
        rw [hstored, OrderedDict.get?_store, hother]
        exact hget
      · -- this very upsert raises
        push Not at hprevious
        obtain ⟨other, hotherGet, hother⟩ := hprevious
        have hraised := @run_upsertAgent_of_not_isObject moment (.str sid) agent (.str sid) app
          other rfl hotherGet (eq_false_of_ne_true hother)
        cases hrun : (upsertAgent moment (.str sid) agent).run app with
        | ok result left =>
            rw [hrun] at hraised
            cases hraised
        | error exception left => rfl

/-- The second loop never raises and drops the keys it is given that are not named. -/
theorem run_despawnMissing (moment : Moment) (agents : List (String × Json))
    (sids : List DictKey) (app : App) :
    ∃ app', (despawnMissing moment agents sids).run app = .ok () app' ∧
      ∀ key, app'.agents.get? key =
        if sids.any fun sid => key == sid && (named agents sid).isNone then none
        else app.agents.get? key := by
  induction sids generalizing app with
  | nil => exact ⟨app, rfl, fun key => rfl⟩
  | cons sid rest ih =>
      unfold despawnMissing
      by_cases hnamed : (named agents sid).isNone = true
      · obtain ⟨final, hfinal, hget⟩ := ih (despawned moment sid app)
        refine ⟨final, ?_, fun key => ?_⟩
        · rw [if_pos hnamed, EStateM.run_bind, run_startDespawn (Json.hash_toJson sid)]
          exact hfinal
        · rw [hget key, agents_despawned, List.any_cons, hnamed, Bool.and_true]
          cases key == sid with
          | false => rfl
          | true => simp
      · obtain ⟨final, hfinal, hget⟩ := ih app
        refine ⟨final, ?_, fun key => ?_⟩
        · rw [if_neg hnamed]
          exact hfinal
        · rw [hget key, List.any_cons, eq_false_of_ne_true hnamed, Bool.and_false,
            Bool.false_or]

/-! ## One snapshot -/

/-- A well-formed snapshot: an object from session ids to objects under `agents`. -/
structure IsSnapshot (message : Json) (agents : List (String × Json)) : Prop where
  hasType : message.get? "type" = some (.str "snapshot")
  hasAgents : message.get? "agents" = some (.obj agents)
  distinct : (agents.map Prod.fst).Nodup
  objects : ∀ item ∈ agents, item.2.isObject = true

/-- Handling the message raises nothing and leaves exactly the agents of the snapshot. -/
def Heals (moment : Moment) (message : Json) (agents : List (String × Json)) (app : App) : Prop :=
  raised ((handleMessage moment message).run app) = false ∧
    ∀ key, (after ((handleMessage moment message).run app)).agents.get? key = named agents key

/-- No session of the snapshot has an agent that is no object. -/
def Readable (agents : List (String × Json)) (app : App) : Prop :=
  ∀ item ∈ agents, ∀ value, app.agents.get? (.str item.1) = some value → value.isObject = true

theorem run_handleMessage_snapshot {message : Json} (h : IsSnapshot message agents) :
    (handleMessage moment message).run app = (applySnapshot moment agents).run app := by
  have hobject : message.isObject = true := by
    cases message with
    | obj members => rfl
    | _ => cases h.hasType
  rw [run_handleMessage hobject]
  simp only [h.hasType, h.hasAgents]
  rfl

theorem run_applySnapshot_error {exception : PyErr} {left : App}
    (h : (upsertAll moment agents).run app = .error exception left) :
    (applySnapshot moment agents).run app = .error exception left := by
  rw [applySnapshot, EStateM.run_bind, h]

/-- The second loop goes over the agents that the first one left. -/
theorem run_applySnapshot_ok {middle : App}
    (h : (upsertAll moment agents).run app = .ok () middle) :
    (applySnapshot moment agents).run app =
      (despawnMissing moment agents middle.agents.keys).run middle := by
  rw [applySnapshot, EStateM.run_bind, h]
  dsimp only
  rw [EStateM.run_bind, EStateM.run_get]

/-- What is not named is dropped, whether or not it was there. -/
theorem agents_of_despawnMissing {app middle : App}
    (hget : ∀ key, app.agents.get? key =
      if middle.agents.keys.any fun sid => key == sid && (named agents sid).isNone then none
      else middle.agents.get? key) (key : DictKey) :
    app.agents.get? key = (named agents key).bind fun _ => middle.agents.get? key := by
  rw [hget key]
  -- the turns of the loop skip what the snapshot names
  cases hnamed : named agents key with
  | some agent =>
      rw [if_neg]
      · rfl
      · intro hany
        obtain ⟨sid, -, hsid⟩ := List.any_eq_true.mp hany
        obtain ⟨hsame, hnone⟩ := Bool.and_eq_true_iff.mp hsid
        rw [← named_congr agents hsame, hnamed] at hnone
        cases hnone
  | none =>
      split
      · rfl
      · rename_i hany
        cases hmiddle : middle.agents.get? key with
        | none => rfl
        | some agent =>
            obtain ⟨item, hitem, hsame, -⟩ := OrderedDict.get?_eq_some_iff.mp hmiddle
            refine absurd (List.any_eq_true.mpr ⟨item.1, List.mem_map_of_mem hitem, ?_⟩) hany
            rw [BEq.symm hsame, named_congr agents hsame, hnamed]
            rfl

/-- **A well-formed snapshot heals the frontend exactly when it can read what it
replaces**, in every state whatever. -/
theorem heals_iff {message : Json} (h : IsSnapshot message agents) :
    Heals moment message agents app ↔ Readable agents app := by
  unfold Heals
  rw [run_handleMessage_snapshot h]
  constructor
  · rintro ⟨hreturned, -⟩ item hitem value hget
    -- an agent that cannot be read stops the first loop, so the handler raises
    by_contra hvalue
    have hraised := @raised_upsertAll moment agents app h.objects item hitem value hget
      (eq_false_of_ne_true hvalue)
    cases hrun : (upsertAll moment agents).run app with
    | ok result left =>
        rw [hrun] at hraised
        cases hraised
    | error exception left =>
        rw [run_applySnapshot_error hrun] at hreturned
        cases hreturned
  · intro hreadable
    obtain ⟨middle, hmiddle, hupserted⟩ := run_upsertAll_ok h.distinct h.objects hreadable
    obtain ⟨final, hfinal, hget⟩ := run_despawnMissing moment agents middle.agents.keys middle
    rw [run_applySnapshot_ok hmiddle, hfinal]
    refine ⟨rfl, fun key => ?_⟩
    rw [after_ok, agents_of_despawnMissing hget key, hupserted key]
    cases named agents key <;> rfl

/-! ## Histories of the frontend -/

/-- What changes the `App` between two frames: a message, whose exception the run loop
swallows, or the end of fade-outs. -/
inductive Update
  | message (moment : Moment) (message : Json)
  | ghosts (order : SetOrder) (now : ℚ)

def perform (app : App) : Update → App
  | .message moment message => after ((handleMessage moment message).run app)
  | .ghosts order now => app.updateGhosts order now

/-- The frontend after a history of updates. -/
def history (updates : List Update) : App :=
  updates.foldl perform initial

/-- **When snapshots heal.**  In every history of the frontend, malformed messages
included, every well-formed snapshot raises nothing and leaves exactly its agents if and
only if each of them finds no session of its own mapped to something that is no object. -/
theorem snapshots_heal_iff (updates : List Update) :
    (∀ earlier moment message agents, earlier ++ [.message moment message] <+: updates →
        IsSnapshot message agents → Heals moment message agents (history earlier)) ↔
      ∀ earlier moment message agents, earlier ++ [.message moment message] <+: updates →
        IsSnapshot message agents → Readable agents (history earlier) :=
  forall_congr' fun _ => forall_congr' fun _ => forall_congr' fun _ => forall_congr' fun _ =>
    imp_congr_right fun _ => imp_congr_right fun h => heals_iff h

/-! ### A null agent -/

/-- A diff whose agent is `null`: it is stored, and only then does reading it raise. -/
def nullAgent : Json :=
  .obj [("type", .str "diff"), ("session_id", .str "s1"), ("op", .str "upsert"), ("agent", .null)]

def healthyAgents : List (String × Json) :=
  [("s1", .obj [("state", .str "idle")])]

def healthySnapshot : Json :=
  .obj [("type", .str "snapshot"), ("agents", .obj healthyAgents)]

theorem isSnapshot_healthySnapshot : IsSnapshot healthySnapshot healthyAgents where
  hasType := rfl
  hasAgents := rfl
  distinct := List.nodup_singleton _
  objects item hitem := by
    rw [List.mem_singleton.mp hitem]
    rfl

/-- After the malformed diff no well-formed snapshot of that session gets through. -/
theorem snapshot_after_nullAgent :
    ¬ ∀ (updates : List Update) (moment : Moment) (message : Json)
      (agents : List (String × Json)), IsSnapshot message agents →
        Heals moment message agents (history updates) := by
  intro hclaim
  have hheals := hclaim [.message .zero nullAgent] .zero healthySnapshot healthyAgents
    isSnapshot_healthySnapshot
  exact Bool.noConfusion (show true = false from hheals.1)

/-! ## Messages that only carry objects -/

/-- Every agent in the message, of whatever type it is, is an object. -/
structure CarriesObjects (message : Json) : Prop where
  inAgents : ∀ agents, message.get? "agents" = some (.obj agents) →
    ∀ item ∈ agents, item.2.isObject = true
  inAgent : ∀ agent, message.get? "agent" = some agent → agent.isObject = true

/-- Every agent that the frontend holds is an object. -/
def AllObjects (app : App) : Prop :=
  ∀ key value, app.agents.get? key = some value → value.isObject = true

theorem AllObjects.readable (h : AllObjects app) (agents : List (String × Json)) :
    Readable agents app :=
  fun item _ value hget => h (.str item.1) value hget

/-! ## What messages preserve -/

/-- An invariant that leaves only objects and survives each of the updates that messages
come to. -/
structure Preserved (moment : Moment) (invariant : App → Prop) : Prop where
  objects : ∀ app, invariant app → AllObjects app
  connection : ∀ app connected, invariant app → invariant { app with connected := connected }
  upsert : ∀ app key agent previous state, invariant app → agent.isObject = true →
    invariant (upserted moment key agent previous state app)
  despawn : ∀ app key, invariant app → invariant (despawned moment key app)

namespace Preserved

variable {invariant : App → Prop}

theorem upsertAgent (h : Preserved moment invariant) {sessionId agent : Json}
    (happ : invariant app) (hagent : agent.isObject = true) :
    invariant (after ((App.upsertAgent moment sessionId agent).run app)) := by
  cases hkey : sessionId.hash with
  | error exception =>
      unfold App.upsertAgent
      rw [EStateM.run_bind, hkey]
      exact happ
  | ok key =>
      obtain ⟨previous, state, hrun⟩ := @run_upsertAgent_upserted moment sessionId agent key app
        hkey (h.objects app happ key) hagent
      rw [hrun]
      exact h.upsert app key agent previous state happ hagent

theorem upsertAll (h : Preserved moment invariant) (happ : invariant app)
    (hagents : ∀ item ∈ agents, item.2.isObject = true) :
    invariant (after ((App.upsertAll moment agents).run app)) := by
  induction agents generalizing app with
  | nil => exact happ
  | cons head rest ih =>
      unfold App.upsertAll
      exact after_bind (h.upsertAgent happ (hagents head List.mem_cons_self))
        fun _ middle hmiddle =>
          ih hmiddle fun item hitem => hagents item (List.mem_cons_of_mem _ hitem)

theorem startDespawn (h : Preserved moment invariant) {sessionId : Json}
    (happ : invariant app) :
    invariant (after ((App.startDespawn moment sessionId).run app)) := by
  cases hkey : sessionId.hash with
  | error exception =>
      unfold App.startDespawn
      rw [EStateM.run_bind, EStateM.run_get, hkey]
      dsimp only
      split <;> exact happ
  | ok key =>
      rw [run_startDespawn hkey]
      exact h.despawn app key happ

theorem despawnMissing (h : Preserved moment invariant) (happ : invariant app)
    (sids : List DictKey) :
    invariant (after ((App.despawnMissing moment agents sids).run app)) := by
  induction sids generalizing app with
  | nil => exact happ
  | cons sid rest ih =>
      unfold App.despawnMissing
      split
      · exact after_bind (h.startDespawn happ) fun _ middle hmiddle => ih hmiddle
      · exact ih happ

theorem applySnapshot (h : Preserved moment invariant) (happ : invariant app)
    (hagents : ∀ item ∈ agents, item.2.isObject = true) :
    invariant (after ((App.applySnapshot moment agents).run app)) := by
  unfold App.applySnapshot
  exact after_bind (h.upsertAll happ hagents) fun _ middle hmiddle =>
    h.despawnMissing hmiddle middle.agents.keys

/-- **A message that only carries objects preserves the invariant**, also when handling it
raises. -/
theorem handleMessage (h : Preserved moment invariant) {message : Json} (happ : invariant app)
    (hmessage : CarriesObjects message) :
    invariant (after ((App.handleMessage moment message).run app)) := by
  cases hobject : message.isObject with
  | false =>
      unfold App.handleMessage
      rw [EStateM.run_bind, Json.get_of_not_isObject hobject]
      exact happ
  | true =>
      have hagent : ((message.get? "agent").getD (.obj [])).isObject = true := by
        cases hget : message.get? "agent" with
        | none => rfl
        | some agent => exact hmessage.inAgent agent hget
      rw [run_handleMessage hobject]
      dsimp only
      split
      · exact h.connection app _ happ
      · split
        · -- a snapshot, or something that calls itself one
          cases hagents : message.get? "agents" with
          | none => exact h.applySnapshot happ fun item hitem => by cases hitem
          | some value =>
              cases value with
              | obj agents => exact h.applySnapshot happ (hmessage.inAgents agents hagents)
              | _ => exact happ
        · split
          · split
            · exact h.upsertAgent happ hagent
            · split
              · exact h.startDespawn happ
              · exact happ
          · exact happ

end Preserved

/-- The agents stay objects: an update stores no agent but the one it is given. -/
theorem preserved_allObjects (moment : Moment) : Preserved moment AllObjects where
  objects _ happ := happ
  connection _ _ happ := happ
  upsert app key agent previous state happ hagent other value hget := by
    rw [agents_upserted, OrderedDict.get?_store] at hget
    split at hget
    · cases hget
      exact hagent
    · exact happ other value hget
  despawn app key happ other value hget := by
    rw [agents_despawned] at hget
    split at hget
    · cases hget
    · exact happ other value hget

/-- **Messages that only carry objects leave only objects**, so that every well-formed
snapshot after them heals. -/
theorem allObjects_history {updates : List Update}
    (hupdates : ∀ moment message, .message moment message ∈ updates → CarriesObjects message) :
    AllObjects (history updates) := by
  unfold history
  suffices h : ∀ app, AllObjects app → AllObjects (updates.foldl perform app) from
    h initial fun key value hget => by cases hget
  intro app happ
  induction updates generalizing app with
  | nil => exact happ
  | cons update rest ih =>
      refine ih (fun moment message hmem => hupdates moment message (List.mem_cons_of_mem _ hmem))
        (perform app update) ?_
      cases update with
      | message moment message =>
          exact (preserved_allObjects moment).handleMessage happ
            (hupdates moment message List.mem_cons_self)
      | ghosts order now =>
          intro key value hget
          unfold perform at hget
          rw [agents_updateGhosts] at hget
          exact happ key value hget

end App

end Frontend
end SiliconOffice
