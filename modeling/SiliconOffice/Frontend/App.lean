import Mathlib.Algebra.Order.Ring.Rat
import SiliconOffice.Frontend.Layout

/-!
# The frontend's view of the office

`App` holds the agents as the daemon last described them, the ghosts of those that are
fading out, the two animation timers and the desk layout.  Messages are whatever JSON the
daemon's stream decoded to: nothing checks their shape, so a method can raise between two
of its assignments, and the run loop swallows the exception and goes on from there.

* `handleMessage` — one message, with the clock readings and set orders it meets;
* `updateGhosts` — the end of the fade-outs;
* `run_upsertAgent`, `run_startDespawn` — all that the two updates can do;
* `run_handleMessage` — which of them a message comes to.
-/

namespace SiliconOffice
namespace Frontend

open Library Python

/-- An agent that is fading out. -/
structure Ghost where
  agent : Json
  despawnStarted : ℚ

/-- What `_handle_message` and `_update_ghosts` read and write of the `App`. -/
@[ext]
structure App where
  layout : Layout
  agents : OrderedDict DictKey Json
  spawnStarted : OrderedDict DictKey ℚ
  askingSince : OrderedDict DictKey ℚ
  ghosts : OrderedDict DictKey Ghost
  connected : Bool

/-- What handling one message takes from outside: the order of sets, the clock at the
start and the clock when a session starts to fade out. -/
structure Moment where
  order : SetOrder
  now : ℚ
  despawnedAt : DictKey → ℚ

/-- The moment at which all clocks show zero. -/
def Moment.zero : Moment where
  order := .asBuilt
  now := 0
  despawnedAt _ := 0

/-- `STATE_ASKING`. -/
def stateAsking : String := "asking"

/-- `DESPAWN_ANIM_SECONDS`: 0.4 seconds. -/
def despawnAnimSeconds : ℚ := 4 / 10

namespace App

/-- `App.__init__`. -/
def initial : App where
  layout := .initial
  agents := .empty
  spawnStarted := .empty
  askingSince := .empty
  ghosts := .empty
  connected := false

/-- `self.layout.sync(set(self.agents) | set(self.ghosts))`. -/
def syncLayout (order : SetOrder) (app : App) : App :=
  { app with
    layout := app.layout.sync order
      (app.agents.keys ++ app.ghosts.keys.filter fun sid => !app.agents.has sid) }

/-- `_upsert_agent`. -/
def upsertAgent (moment : Moment) (sessionId agent : Json) : EStateM PyErr App Unit := do
  let key ← raising sessionId.hash
  let app ← get
  let isNew := !app.agents.has key && !app.ghosts.has key
  modify fun app => { app with ghosts := app.ghosts.discard key }
  -- raises when the agent stored under the key is no object
  let previous ← raising (((app.agents.get? key).getD (.obj [])).get "state" .null)
  let wasAsking := previous.isText stateAsking
  modify fun app => { app with agents := app.agents.store key agent }
  modify fun app =>
    if isNew then { app with spawnStarted := app.spawnStarted.store key moment.now } else app
  -- raises when the new agent is no object, which by now has been stored
  let state ← raising (agent.get "state" .null)
  modify fun app =>
    if state.isText stateAsking && !wasAsking then
      { app with askingSince := app.askingSince.store key moment.now }
    else app
  modify (syncLayout moment.order)

/-- `_start_despawn`. -/
def startDespawn (moment : Moment) (sessionId : Json) : EStateM PyErr App Unit := do
  let app ← get
  -- popping from an empty dictionary does not even hash the key
  if app.agents.items.isEmpty then return
  let key ← raising sessionId.hash
  match app.agents.get? key with
  | none => return
  | some agent =>
      modify fun app => { app with agents := app.agents.discard key }
      -- an agent that is `None` looks like one that was not there
      if agent.isNone then return
      modify fun app =>
        { app with
          ghosts := app.ghosts.store key ⟨agent, moment.despawnedAt key⟩
          spawnStarted := app.spawnStarted.discard key
          askingSince := app.askingSince.discard key }
      modify (syncLayout moment.order)

/-- `for sid, agent in agents.items(): self._upsert_agent(sid, agent, now)`. -/
def upsertAll (moment : Moment) : List (String × Json) → EStateM PyErr App Unit
  | [] => pure ()
  | (sid, agent) :: rest => do
      upsertAgent moment (.str sid) agent
      upsertAll moment rest

/-- `sid in agents`, for the agents of a snapshot. -/
def named (agents : List (String × Json)) : DictKey → Option Json
  | .str sid => agents.lookup sid
  | _ => none

/-- `for sid in list(self.agents): if sid not in agents: self._start_despawn(sid)`. -/
def despawnMissing (moment : Moment) (agents : List (String × Json)) :
    List DictKey → EStateM PyErr App Unit
  | [] => pure ()
  | sid :: rest => do
      if (named agents sid).isNone then startDespawn moment sid.toJson
      despawnMissing moment agents rest

/-- The two loops of the snapshot branch. -/
def applySnapshot (moment : Moment) (agents : List (String × Json)) :
    EStateM PyErr App Unit := do
  upsertAll moment agents
  -- the keys are listed once, after the upserts
  let app ← get
  despawnMissing moment agents app.agents.keys

/-- `_handle_message`. -/
def handleMessage (moment : Moment) (message : Json) : EStateM PyErr App Unit := do
  let mtype ← raising (message.get "type" .null)
  if mtype.isText "_conn_status" then
    let connected ← raising (message.get "connected" .null)
    modify fun app => { app with connected := connected.truthy }
  else if mtype.isText "snapshot" then
    match ← raising (message.get "agents" (.obj [])) with
    | .obj agents => applySnapshot moment agents
    | _ => throw .attributeError
  else if mtype.isText "diff" then
    let sid ← raising (message.get "session_id" .null)
    let op ← raising (message.get "op" .null)
    if op.isText "upsert" && sid.truthy then
      let agent ← raising (message.get "agent" (.obj []))
      upsertAgent moment sid agent
    else if op.isText "remove" && sid.truthy then
      startDespawn moment sid

/-- The ghosts whose fade-out is over. -/
def finished (now : ℚ) (app : App) : List DictKey :=
  (app.ghosts.items.filter fun item =>
    decide (now - item.2.despawnStarted ≥ despawnAnimSeconds)).map Prod.fst

/-- `_update_ghosts`. -/
def updateGhosts (order : SetOrder) (now : ℚ) (app : App) : App :=
  let finished := app.finished now
  let faded := { app with ghosts := finished.foldl OrderedDict.discard app.ghosts }
  if finished.isEmpty then faded else faded.syncLayout order

/-! ## What the methods can do -/

@[simp] theorem agents_syncLayout (order : SetOrder) (app : App) :
    (app.syncLayout order).agents = app.agents := rfl

@[simp] theorem agents_updateGhosts (order : SetOrder) (now : ℚ) (app : App) :
    (app.updateGhosts order now).agents = app.agents := by
  unfold updateGhosts
  dsimp only
  split <;> rfl

/-- The state between the assignment of the agent and the last reading of it. -/
def stored (moment : Moment) (key : DictKey) (agent : Json) (app : App) : App :=
  { app with
    ghosts := app.ghosts.discard key
    agents := app.agents.store key agent
    spawnStarted :=
      if !app.agents.has key && !app.ghosts.has key then
        app.spawnStarted.store key moment.now
      else app.spawnStarted }

/-- The state after an upsert that went through. -/
def upserted (moment : Moment) (key : DictKey) (agent previous state : Json) (app : App) : App :=
  syncLayout moment.order
    { stored moment key agent app with
      askingSince :=
        if state.isText stateAsking && !previous.isText stateAsking then
          app.askingSince.store key moment.now
        else app.askingSince }

section upsertAgent

variable {moment : Moment} {sessionId agent : Json} {key : DictKey} {app : App}

/-- An upsert can raise twice: reading the state of the agent it replaces, when only the
ghost is gone, and reading the state of the new one, when that is stored already. -/
theorem run_upsertAgent (hkey : sessionId.hash = .ok key) :
    (upsertAgent moment sessionId agent).run app =
      match ((app.agents.get? key).getD (.obj [])).get "state" .null,
        agent.get "state" .null with
      | .error exception, _ => .error exception { app with ghosts := app.ghosts.discard key }
      | .ok _, .error exception => .error exception (stored moment key agent app)
      | .ok previous, .ok state => .ok () (upserted moment key agent previous state app) := by
  unfold upsertAgent
  simp only [hkey, EStateM.run_bind, run_raising_ok, EStateM.run_get, EStateM.run_modify]
  cases ((app.agents.get? key).getD (.obj [])).get "state" .null with
  | error exception => rfl
  | ok previous =>
      dsimp only [run_raising_ok]
      have hstored : (if (!app.agents.has key && !app.ghosts.has key) = true then
          { app with
            ghosts := app.ghosts.discard key
            agents := app.agents.store key agent
            spawnStarted := app.spawnStarted.store key moment.now }
        else
          { app with
            ghosts := app.ghosts.discard key
            agents := app.agents.store key agent }) = stored moment key agent app := by
        unfold stored
        split <;> rfl
      rw [hstored]
      cases agent.get "state" .null with
      | error exception => rfl
      | ok state =>
          dsimp only [run_raising_ok, upserted]
          split <;> rfl

theorem agents_upserted (previous state : Json) :
    (upserted moment key agent previous state app).agents = app.agents.store key agent := rfl

/-- Between objects an upsert goes through. -/
theorem run_upsertAgent_upserted (hkey : sessionId.hash = .ok key)
    (hprevious : ∀ value, app.agents.get? key = some value → value.isObject = true)
    (hagent : agent.isObject = true) :
    ∃ previous state, (upsertAgent moment sessionId agent).run app =
      .ok () (upserted moment key agent previous state app) := by
  have hold : ((app.agents.get? key).getD (.obj [])).isObject = true := by
    cases hget : app.agents.get? key with
    | none => rfl
    | some value => exact hprevious value hget
  rw [run_upsertAgent hkey, Json.get_of_isObject hold, Json.get_of_isObject hagent]
  exact ⟨_, _, rfl⟩

/-- It stores the agent. -/
theorem run_upsertAgent_ok (hkey : sessionId.hash = .ok key)
    (hprevious : ∀ value, app.agents.get? key = some value → value.isObject = true)
    (hagent : agent.isObject = true) :
    ∃ app', (upsertAgent moment sessionId agent).run app = .ok () app' ∧
      app'.agents = app.agents.store key agent := by
  obtain ⟨previous, state, hrun⟩ := @run_upsertAgent_upserted moment _ _ _ _ hkey hprevious hagent
  exact ⟨_, hrun, agents_upserted previous state⟩

/-- Over an agent that is no object an upsert raises. -/
theorem run_upsertAgent_of_not_isObject {value : Json} (hkey : sessionId.hash = .ok key)
    (hget : app.agents.get? key = some value) (hvalue : value.isObject = false) :
    raised ((upsertAgent moment sessionId agent).run app) = true := by
  rw [run_upsertAgent hkey, hget]
  dsimp only [Option.getD]
  rw [Json.get_of_not_isObject hvalue]
  rfl

end upsertAgent

/-- The state after a despawn. -/
def despawned (moment : Moment) (key : DictKey) (app : App) : App :=
  match app.agents.get? key with
  | none => app
  | some agent =>
      let popped := { app with agents := app.agents.discard key }
      if agent.isNone then popped
      else
        syncLayout moment.order
          { popped with
            ghosts := app.ghosts.store key ⟨agent, moment.despawnedAt key⟩
            spawnStarted := app.spawnStarted.discard key
            askingSince := app.askingSince.discard key }

theorem get?_of_isEmpty {app : App} (h : app.agents.items.isEmpty = true) (key : DictKey) :
    app.agents.get? key = none := by
  have hitems : app.agents.items = [] := List.isEmpty_iff.mp h
  unfold OrderedDict.get?
  rw [hitems]
  rfl

/-- A despawn of a hashable session id never raises. -/
theorem run_startDespawn {moment : Moment} {sessionId : Json} {key : DictKey} {app : App}
    (hkey : sessionId.hash = .ok key) :
    (startDespawn moment sessionId).run app = .ok () (despawned moment key app) := by
  unfold startDespawn despawned
  rw [EStateM.run_bind, EStateM.run_get]
  dsimp only
  by_cases hempty : app.agents.items.isEmpty = true
  · rw [if_pos hempty, get?_of_isEmpty hempty]
    rfl
  · rw [if_neg hempty, EStateM.run_bind, hkey, run_raising_ok]
    dsimp only
    cases app.agents.get? key with
    | none => rfl
    | some agent =>
        dsimp only
        rw [EStateM.run_bind, EStateM.run_modify]
        dsimp only
        by_cases hnone : agent.isNone = true
        · rw [if_pos hnone, if_pos hnone]
          rfl
        · rw [if_neg hnone, if_neg hnone]
          rfl

theorem agents_despawned (moment : Moment) (key other : DictKey) (app : App) :
    (despawned moment key app).agents.get? other =
      if other == key then none else app.agents.get? other := by
  unfold despawned
  cases hget : app.agents.get? key with
  | none =>
      dsimp only
      split
      · rename_i hsame
        rw [app.agents.get?_congr hsame, hget]
      · rfl
  | some agent =>
      dsimp only
      split <;> exact OrderedDict.get?_discard ..

/-- Once a message is an object, reading its fields never raises. -/
theorem run_handleMessage {message : Json} (hobject : message.isObject = true)
    (moment : Moment) (app : App) :
    (handleMessage moment message).run app =
      let field := fun name => (message.get? name).getD .null
      if (field "type").isText "_conn_status" then
        .ok () { app with connected := (field "connected").truthy }
      else if (field "type").isText "snapshot" then
        match (message.get? "agents").getD (.obj []) with
        | .obj agents => (applySnapshot moment agents).run app
        | _ => .error .attributeError app
      else if (field "type").isText "diff" then
        if (field "op").isText "upsert" && (field "session_id").truthy then
          (upsertAgent moment (field "session_id")
            ((message.get? "agent").getD (.obj []))).run app
        else if (field "op").isText "remove" && (field "session_id").truthy then
          (startDespawn moment (field "session_id")).run app
        else .ok () app
      else .ok () app := by
  unfold handleMessage
  simp only [Json.get_of_isObject hobject, EStateM.run_bind, run_raising_ok]
  split
  · rfl
  · split
    · cases (message.get? "agents").getD (.obj []) <;> rfl
    · split
      · rw [EStateM.run_bind, run_raising_ok]
        dsimp only
        rw [EStateM.run_bind, run_raising_ok]
        dsimp only
        split
        · rfl
        · split <;> rfl
      · rfl

end App

end Frontend
end SiliconOffice
