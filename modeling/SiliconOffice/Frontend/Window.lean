import SiliconOffice.Frontend.Pictures

/-!
# The render loop

One turn of the loop of `App.run`: the events of the window, then, under one `try`, all that
is on the queue, the end of fade-outs and the frame.  Whatever raises ends the turn; what had
been done by then stays done.

`_draw` also tidies up: it drops the animation timers that it finds to be over.
-/

namespace SiliconOffice
namespace Frontend

open Library Python

/-- The whole `App`, as `run` goes through it. -/
structure Window (toolkit : Toolkit) where
  app : App
  display : Display toolkit
  windowSize : Int × Int
  /-- `_queue`, the oldest message first. -/
  queue : List Json
  running : Bool

/-- The events that `run` looks at. -/
inductive WindowEvent
  | quit
  | videoResize (w h : Int)
  | other

/-- What one turn of the loop meets. -/
structure Turn where
  events : List WindowEvent
  /-- What the connection puts on the queue before this turn finds it empty. -/
  arrivals : List Json
  /-- The moments at which the messages of this turn are handled. -/
  moments : ℕ → Moment
  /-- `time.monotonic()` in `_update_ghosts`, and the order of the set it builds. -/
  order : SetOrder
  fadedAt : ℚ
  /-- `time.monotonic()` and `_anim_tick()` in `_draw`. -/
  drawnAt : ℚ
  animTick : ℚ
  usage : UsageSnapshot

namespace App

/-- The fade-in of an agent, whose timer is dropped when it is over. -/
def spawnAlpha (now : ℚ) (sid : DictKey) : EStateM PyErr App ℚ := do
  let app ← get
  match app.spawnStarted.get? sid with
  | none => return 1
  | some spawnStarted =>
      let elapsed := now - spawnStarted
      if elapsed < spawnAnimSeconds then
        return max 0 (min 1 (elapsed / spawnAnimSeconds))
      else
        modify fun app => { app with spawnStarted := app.spawnStarted.discard sid }
        return 1

/-- The flash of an agent that has begun to ask, whose timer is dropped when it is over. -/
def askingBoost (now : ℚ) (sid : DictKey) (agent : Json) : EStateM PyErr App ℚ := do
  let app ← get
  match app.askingSince.get? sid with
  | none => return 0
  | some askingSince =>
      let state ← raising (agent.get "state" .null)
      if state.isText stateAsking then
        let elapsed := now - askingSince
        if elapsed < askingFlashSeconds then
          return 1 - elapsed / askingFlashSeconds
        else
          modify fun app => { app with askingSince := app.askingSince.discard sid }
          return 0
      else return 0

end App

namespace Window

variable {toolkit : Toolkit} {α : Type}

/-- Before the first turn. -/
def initial (toolkit : Toolkit) (windowSize : Int × Int) : Window toolkit where
  app := .initial
  display := .initial toolkit
  windowSize := windowSize
  queue := []
  running := true

/-- A method that only touches what messages touch. -/
def onApp (method : EStateM PyErr App α) : EStateM PyErr (Window toolkit) α := fun window =>
  match method.run window.app with
  | .ok value app => .ok value { window with app := app }
  | .error exception app => .error exception { window with app := app }

/-- A method that only draws. -/
def onDisplay (method : EStateM PyErr (Display toolkit) α) : EStateM PyErr (Window toolkit) α :=
  fun window =>
    match method.run window.display with
    | .ok value display => .ok value { window with display := display }
    | .error exception display => .error exception { window with display := display }

/-- An event of the window. -/
def handleEvent (window : Window toolkit) : WindowEvent → Window toolkit
  | .quit => { window with running := false }
  | .videoResize w h => { window with windowSize := (w, h) }
  | .other => window

/-- `_drain_queue`, on the messages that are on the queue. -/
def drainQueue (moments : ℕ → Moment) : List Json → EStateM PyErr (Window toolkit) Unit
  | [] => pure ()
  | message :: rest => do
      -- the message is off the queue before it is handled
      modify fun window => { window with queue := rest }
      onApp (App.handleMessage (moments 0) message)
      drainQueue (fun index => moments (index + 1)) rest

/-- The first loop of `_draw`. -/
def drawAgents (now animTick : ℚ) (officeSize : Int × Int) :
    List (DictKey × Json) → EStateM PyErr (Window toolkit) Unit
  | [] => pure ()
  | (sid, agent) :: rest => do
      let window ← get
      match window.app.layout.deskRect sid officeSize with
      | none => pure ()
      | some rect => do
          let alpha ← onApp (App.spawnAlpha now sid)
          let boost ← onApp (App.askingBoost now sid agent)
          onDisplay (drawAgent (rect.move 0 usageBarHeight) agent animTick alpha boost)
      drawAgents now animTick officeSize rest

/-- The second loop of `_draw`. -/
def drawGhosts (now animTick : ℚ) (officeSize : Int × Int) :
    List (DictKey × Ghost) → EStateM PyErr (Window toolkit) Unit
  | [] => pure ()
  | (sid, ghost) :: rest => do
      let window ← get
      match window.app.layout.deskRect sid officeSize with
      | none => pure ()
      | some rect => do
          let elapsed := now - ghost.despawnStarted
          let faded := max 0 (min 1 (elapsed / despawnAnimSeconds))
          onDisplay (drawAgent (rect.move 0 usageBarHeight) ghost.agent animTick (1 - faded) 0)
      drawGhosts now animTick officeSize rest

/-- `office_size`: the window below the usage bar. -/
def officeSize (windowSize : Int × Int) : Int × Int :=
  (windowSize.1, max 1 (windowSize.2 - usageBarHeight))

/-- `_draw`. -/
def draw (now animTick : ℚ) (usage : UsageSnapshot) : EStateM PyErr (Window toolkit) Unit := do
  let window ← get
  -- filling the screen covers all that was drawn before
  onDisplay (modify fun display => { display with screen := [.fill bgColor] })
  onDisplay (drawBackground window.windowSize)
  drawAgents now animTick (officeSize window.windowSize) window.app.agents.items
  drawGhosts now animTick (officeSize window.windowSize) window.app.ghosts.items
  if !window.app.connected then onDisplay (drawConnectionBanner window.windowSize)
  onDisplay (drawUsageBar window.windowSize usage)
  onDisplay (modify fun display => { display with presented := some display.screen })

/-- The `try` of the loop. -/
def update (turn : Turn) : EStateM PyErr (Window toolkit) Unit := do
  let window ← get
  drainQueue turn.moments window.queue
  modify fun window => { window with app := window.app.updateGhosts turn.order turn.fadedAt }
  draw turn.drawnAt turn.animTick turn.usage

/-- One turn of the loop; `clock.tick` only waits. -/
def perform (window : Window toolkit) (turn : Turn) : Window toolkit :=
  let window := turn.events.foldl handleEvent window
  let window := { window with queue := window.queue ++ turn.arrivals }
  after ((swallowing () (update turn)).run window)

/-- The window after a run of turns. -/
def afterTurns (windowSize : Int × Int) (turns : List Turn) : Window toolkit :=
  turns.foldl perform (initial toolkit windowSize)

end Window

end Frontend
end SiliconOffice
