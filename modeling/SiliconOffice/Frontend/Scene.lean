import SiliconOffice.Frontend.Timers

/-!
# What a frame shows

`scene` is the frame that belongs to a state and a time: computed from these alone, with
nothing remembered from earlier frames.  `run_draw` says that `_draw` puts exactly this on the
screen, whatever its caches hold and whichever timers it has dropped before; when any piece of
the scene cannot be drawn, it puts nothing there and the frame before stays.
-/

namespace SiliconOffice
namespace Frontend

open Library Python

variable {toolkit : Toolkit}

/-! ## Pieces of a scene -/

/-- One piece after another. -/
def pictures : List (Except PyErr (List ScreenOp)) → Except PyErr (List ScreenOp)
  | [] => .ok []
  | piece :: rest => do
      let ops ← piece
      let later ← pictures rest
      .ok (ops ++ later)

theorem map_pictures_cons (piece : Except PyErr (List ScreenOp))
    (rest : List (Except PyErr (List ScreenOp))) :
    (pictures (piece :: rest)).map ((), ·) =
      andThen (piece.map ((), ·)) fun _ => (pictures rest).map ((), ·) := by
  rw [pictures]
  cases piece with
  | error exception => rfl
  | ok ops => cases pictures rest <;> rfl

theorem pictures_append (pieces rest : List (Except PyErr (List ScreenOp))) :
    pictures (pieces ++ rest) =
      pictures pieces >>= fun ops => (pictures rest).map (ops ++ ·) := by
  induction pieces with
  | nil =>
      rw [List.nil_append]
      cases pictures rest <;> rfl
  | cons piece pieces ih =>
      rw [List.cons_append, pictures, ih, pictures]
      cases piece with
      | error exception => rfl
      | ok ops =>
          cases pictures pieces with
          | error exception => rfl
          | ok later =>
              cases pictures rest with
              | error exception => rfl
              | ok last =>
                  show Except.ok (ops ++ (later ++ last)) = .ok (ops ++ later ++ last)
                  rw [List.append_assoc]

theorem map_pictures_append (pieces rest : List (Except PyErr (List ScreenOp))) :
    (pictures (pieces ++ rest)).map ((), ·) =
      andThen ((pictures pieces).map ((), ·)) fun _ => (pictures rest).map ((), ·) := by
  rw [pictures_append]
  cases pictures pieces with
  | error exception => rfl
  | ok ops => cases pictures rest <;> rfl

theorem pictures_singleton (piece : Except PyErr (List ScreenOp)) : pictures [piece] = piece := by
  unfold pictures
  cases piece with
  | error exception => rfl
  | ok ops => exact congrArg Except.ok (List.append_nil ops)

theorem forall_of_pictures {ι : Type} {items : List ι}
    {piece : ι → Except PyErr (List ScreenOp)} {holds : ScreenOp → Prop} {ops : List ScreenOp}
    (hpiece : ∀ item ∈ items, ∀ part, piece item = .ok part → ∀ op ∈ part, holds op)
    (h : pictures (items.map piece) = .ok ops) : ∀ op ∈ ops, holds op := by
  induction items generalizing ops with
  | nil =>
      rw [← Except.ok.inj h]
      exact fun op hop => absurd hop List.not_mem_nil
  | cons item rest ih =>
      obtain ⟨part, hpart, hrest⟩ := exists_of_bind_ok h
      obtain ⟨later, hlater, hops⟩ := exists_of_bind_ok hrest
      rw [← Except.ok.inj hops]
      intro op hop
      rcases List.mem_append.mp hop with hfirst | hsecond
      · exact hpiece item List.mem_cons_self part hpart op hfirst
      · exact ih (fun other hother => hpiece other (List.mem_cons_of_mem _ hother)) hlater op
          hsecond

/-- An agent at its desk, if it has one. -/
def deskPicture (toolkit : Toolkit) (layout : Layout) (officeSize : Int × Int) (sid : DictKey)
    (agent : Json) (animTick alpha boost : ℚ) : Except PyErr (List ScreenOp) :=
  match layout.deskRect sid officeSize with
  | none => .ok []
  | some rect => picture toolkit (rect.move 0 usageBarHeight) agent animTick alpha boost

section desk

variable {layout : Layout} {officeSize : Int × Int} {sid : DictKey} {agent : Json}
  {animTick alpha boost : ℚ}

theorem deskPicture_of_none (h : layout.deskRect sid officeSize = none) :
    deskPicture toolkit layout officeSize sid agent animTick alpha boost = .ok [] := by
  rw [deskPicture, h]

theorem deskPicture_of_some {rect : Rect} (h : layout.deskRect sid officeSize = some rect) :
    deskPicture toolkit layout officeSize sid agent animTick alpha boost =
      picture toolkit (rect.move 0 usageBarHeight) agent animTick alpha boost := by
  rw [deskPicture, h]

end desk

/-- How much of a ghost is left. -/
def Ghost.alphaAt (ghost : Ghost) (now : ℚ) : ℚ :=
  1 - progress despawnAnimSeconds ghost.despawnStarted now

namespace App

/-- The agents of a scene, each at its desk. -/
def agentPieces (toolkit : Toolkit) (app : App) (windowSize : Int × Int) (now animTick : ℚ) :
    List (Except PyErr (List ScreenOp)) :=
  app.agents.items.map fun item =>
    deskPicture toolkit app.layout (Window.officeSize windowSize) item.1 item.2 animTick
      (app.alphaOf now item.1) (app.boostOf now item.1 item.2)

/-- Its ghosts. -/
def ghostPieces (toolkit : Toolkit) (app : App) (windowSize : Int × Int) (now animTick : ℚ) :
    List (Except PyErr (List ScreenOp)) :=
  app.ghosts.items.map fun item =>
    deskPicture toolkit app.layout (Window.officeSize windowSize) item.1 item.2.agent animTick
      (item.2.alphaAt now) 0

/-- All that comes over the ground of the frame. -/
def scenePieces (toolkit : Toolkit) (app : App) (windowSize : Int × Int) (now animTick : ℚ)
    (usage : UsageSnapshot) : List (Except PyErr (List ScreenOp)) :=
  backgroundPicture toolkit windowSize ::
    (app.agentPieces toolkit windowSize now animTick ++
      (app.ghostPieces toolkit windowSize now animTick ++
        ((if app.connected then [] else [bannerPicture toolkit windowSize]) ++
          [usagePicture toolkit windowSize usage])))

/-- **The frame that belongs to a state.** -/
def scene (toolkit : Toolkit) (app : App) (windowSize : Int × Int) (now animTick : ℚ)
    (usage : UsageSnapshot) : Except PyErr (List ScreenOp) :=
  (pictures (app.scenePieces toolkit windowSize now animTick usage)).map (.fill bgColor :: ·)

/-- A scene that can be drawn, taken to pieces. -/
theorem parts_of_scene {app : App} {windowSize : Int × Int} {now animTick : ℚ}
    {usage : UsageSnapshot} {ops : List ScreenOp}
    (h : app.scene toolkit windowSize now animTick usage = .ok ops) :
    ∃ background agents ghosts banner bar, backgroundPicture toolkit windowSize = .ok background ∧
      pictures (app.agentPieces toolkit windowSize now animTick) = .ok agents ∧
      pictures (app.ghostPieces toolkit windowSize now animTick) = .ok ghosts ∧
      (app.connected = true ∧ banner = [] ∨
        app.connected = false ∧ bannerPicture toolkit windowSize = .ok banner) ∧
      usagePicture toolkit windowSize usage = .ok bar ∧
      ops = .fill bgColor :: (background ++ (agents ++ (ghosts ++ (banner ++ bar)))) := by
  obtain ⟨pieces, hpieces, rfl⟩ := exists_of_map_ok h
  unfold scenePieces at hpieces
  obtain ⟨background, hbackground, hpieces⟩ := exists_of_bind_ok hpieces
  obtain ⟨others, hothers, hpieces⟩ := exists_of_bind_ok hpieces
  rw [pictures_append] at hothers
  obtain ⟨agents, hagents, hothers⟩ := exists_of_bind_ok hothers
  obtain ⟨others', hothers', rfl⟩ := exists_of_map_ok hothers
  rw [pictures_append] at hothers'
  obtain ⟨ghosts, hghosts, hothers'⟩ := exists_of_bind_ok hothers'
  obtain ⟨others'', hothers'', rfl⟩ := exists_of_map_ok hothers'
  rw [pictures_append, pictures_singleton] at hothers''
  obtain ⟨banner, hbanner, hothers''⟩ := exists_of_bind_ok hothers''
  obtain ⟨bar, hbar, rfl⟩ := exists_of_map_ok hothers''
  refine ⟨background, agents, ghosts, banner, bar, hbackground, hagents, hghosts, ?_, hbar, ?_⟩
  · split at hbanner
    · exact .inl ⟨‹_›, (Except.ok.inj hbanner).symm⟩
    · rw [pictures_singleton] at hbanner
      exact .inr ⟨eq_false_of_ne_true ‹_›, hbanner⟩
  · rw [← Except.ok.inj hpieces]

/-- Timers that are over do not show. -/
theorem scene_of_sheds {seen : List ℚ} {reference app : App} {now : ℚ}
    (h : Sheds seen reference app) (hseen : ∀ t ∈ seen, t ≤ now) (windowSize : Int × Int)
    (animTick : ℚ) (usage : UsageSnapshot) :
    app.scene toolkit windowSize now animTick usage =
      reference.scene toolkit windowSize now animTick usage := by
  unfold scene scenePieces agentPieces ghostPieces
  simp only [h.agents, h.ghosts, h.layout, h.connected, alphaOf_of_sheds h hseen,
    boostOf_of_sheds h hseen]

end App

/-! ## Drawing a frame -/

namespace Window

/-- While a frame is drawn, nothing else happens but that timers are dropped. -/
structure Backstage (seen : List ℚ) (reference : App) (before window : Window toolkit) :
    Prop where
  app : App.Sheds seen reference window.app
  queue : window.queue = before.queue
  windowSize : window.windowSize = before.windowSize
  running : window.running = before.running

/-- Nothing is presented before the end. -/
structure Stage (seen : List ℚ) (reference : App) (before window : Window toolkit) : Prop
    extends Backstage seen reference before window where
  presented : window.display.presented = before.display.presented

/-- What has been drawn since the screen was filled. -/
def drawn (window : Window toolkit) : List ScreenOp :=
  window.display.screen

variable {seen : List ℚ} {reference : App} {before : Window toolkit} {α : Type} {now : ℚ}

/-- A drawing function does to the window what it does to the display. -/
theorem writes_onDisplay {sketch : Except PyErr (α × List ScreenOp)}
    {method : EStateM PyErr (Display toolkit) α} (h : Paints sketch method) :
    Writes (Stage seen reference before) drawn sketch (onDisplay method) := by
  intro window hstage
  obtain ⟨hok, herror⟩ := h before.display.presented window.display hstage.presented
  constructor
  · intro value ops hsketch
    obtain ⟨display, hrun, hscreen, hpresented⟩ := hok value ops hsketch
    refine ⟨{ window with display := display }, ?_, hscreen, ⟨hstage.app, hstage.queue,
      hstage.windowSize, hstage.running⟩, hpresented⟩
    show onDisplay method window = _
    unfold onDisplay
    rw [hrun]
  · intro exception hsketch
    obtain ⟨display, hrun, hpresented⟩ := herror exception hsketch
    refine ⟨{ window with display := display }, ?_, ⟨hstage.app, hstage.queue,
      hstage.windowSize, hstage.running⟩, hpresented⟩
    show onDisplay method window = _
    unfold onDisplay
    rw [hrun]

/-- Reading a timer draws nothing. -/
theorem writes_onApp {method : EStateM PyErr App α} {value : α}
    (h : ∀ app, App.Sheds seen reference app →
      ∃ app', method.run app = .ok value app' ∧ App.Sheds seen reference app') :
    Writes (Stage seen reference before) drawn (.ok (value, [])) (onApp method) := by
  apply writes_of_ok
  intro window hstage
  obtain ⟨app', hrun, happ'⟩ := h window.app hstage.app
  refine ⟨{ window with app := app' }, ?_, (List.append_nil _).symm, ⟨happ', hstage.queue,
    hstage.windowSize, hstage.running⟩, hstage.presented⟩
  show onApp method window = _
  unfold onApp
  rw [hrun]

/-- One agent at its desk, with its animations. -/
theorem writes_agent (htexts : toolkit.RendersTexts) (hnow : now ∈ seen)
    (hseen : ∀ t ∈ seen, t ≤ now) (sid : DictKey) (agent : Json) (rect : Rect) (animTick : ℚ) :
    Writes (Stage seen reference before) drawn
      ((picture toolkit rect agent animTick (reference.alphaOf now sid)
        (reference.boostOf now sid agent)).map ((), ·))
      (do
        let alpha ← onApp (App.spawnAlpha now sid)
        let boost ← onApp (App.askingBoost now sid agent)
        onDisplay (drawAgent rect agent animTick alpha boost)) := by
  have halpha : Writes (Stage seen reference before) drawn
      (.ok (reference.alphaOf now sid, [])) (onApp (App.spawnAlpha now sid)) :=
    writes_onApp fun app h => App.run_spawnAlpha h hnow hseen sid
  refine halpha.bind_silent ?_
  cases hobject : agent.isObject with
  | true =>
      have hboost : Writes (Stage seen reference before) drawn
          (.ok (reference.boostOf now sid agent, [])) (onApp (App.askingBoost now sid agent)) :=
        writes_onApp fun app h => App.run_askingBoost h hnow hseen sid hobject
      exact hboost.bind_silent (writes_onDisplay (paints_drawAgent htexts rect agent _ _ _))
  | false =>
      -- the frame ends here, either at the state of the flash or at the state of the desk
      have hpicture : ∀ alpha boost, picture toolkit rect agent animTick alpha boost =
          .error .attributeError := by
        intro alpha boost
        rw [picture, Json.get_of_not_isObject hobject]
        rfl
      rw [hpicture]
      apply writes_of_error
      intro window hstage
      have hdraw := (writes_onDisplay (paints_drawAgent htexts rect agent animTick
        (reference.alphaOf now sid) 0) window hstage).2 .attributeError
          (by rw [hpicture]; rfl)
      rw [EStateM.run_bind]
      rcases App.run_askingBoost_of_not_isObject window.app now sid hobject with hrun | hrun
      · have hboost : (onApp (App.askingBoost now sid agent)).run window = .ok 0 window := by
          show onApp (App.askingBoost now sid agent) window = _
          unfold onApp
          rw [hrun]
        rw [hboost]
        exact hdraw
      · have hboost : (onApp (App.askingBoost now sid agent)).run window =
            .error .attributeError window := by
          show onApp (App.askingBoost now sid agent) window = _
          unfold onApp
          rw [hrun]
        rw [hboost]
        exact ⟨window, rfl, hstage⟩

theorem writes_drawAgents (htexts : toolkit.RendersTexts) (hnow : now ∈ seen)
    (hseen : ∀ t ∈ seen, t ≤ now) (animTick : ℚ) (officeSize : Int × Int)
    (items : List (DictKey × Json)) :
    Writes (Stage seen reference before) drawn
      ((pictures (items.map fun item =>
        deskPicture toolkit reference.layout officeSize item.1 item.2 animTick
          (reference.alphaOf now item.1) (reference.boostOf now item.1 item.2))).map ((), ·))
      (drawAgents now animTick officeSize items) := by
  induction items with
  | nil => exact writes_pure ()
  | cons item rest ih =>
      obtain ⟨sid, agent⟩ := item
      rw [List.map_cons, map_pictures_cons]
      unfold drawAgents
      apply writes_get_bind
      intro window hstage
      rw [hstage.app.layout]
      cases hrect : reference.layout.deskRect sid officeSize with
      | none =>
          rw [deskPicture_of_none hrect]
          exact (writes_pure ()).bind fun _ => ih
      | some rect =>
          rw [deskPicture_of_some hrect]
          have hagent := (@writes_agent _ seen reference before now htexts hnow hseen sid agent
            (rect.move 0 usageBarHeight) animTick).bind fun _ => ih
          simp only [bind_assoc] at hagent
          exact hagent

theorem writes_drawGhosts (htexts : toolkit.RendersTexts) (animTick : ℚ)
    (officeSize : Int × Int) (items : List (DictKey × Ghost)) :
    Writes (Stage seen reference before) drawn
      ((pictures (items.map fun item =>
        deskPicture toolkit reference.layout officeSize item.1 item.2.agent animTick
          (item.2.alphaAt now) 0)).map ((), ·))
      (drawGhosts now animTick officeSize items) := by
  induction items with
  | nil => exact writes_pure ()
  | cons item rest ih =>
      obtain ⟨sid, ghost⟩ := item
      rw [List.map_cons, map_pictures_cons]
      unfold drawGhosts
      apply writes_get_bind
      intro window hstage
      rw [hstage.app.layout]
      cases hrect : reference.layout.deskRect sid officeSize with
      | none =>
          rw [deskPicture_of_none hrect]
          exact (writes_pure ()).bind fun _ => ih
      | some rect =>
          rw [deskPicture_of_some hrect]
          exact (writes_onDisplay (paints_drawAgent htexts (rect.move 0 usageBarHeight)
            ghost.agent animTick (ghost.alphaAt now) 0)).bind fun _ => ih

/-- All that `_draw` does after it has filled the screen and before it presents it. -/
theorem writes_scenePieces (htexts : toolkit.RendersTexts) (hnow : now ∈ seen)
    (hseen : ∀ t ∈ seen, t ≤ now) {window : Window toolkit}
    (hwindow : App.Sheds seen reference window.app) (animTick : ℚ) (usage : UsageSnapshot) :
    Writes (Stage seen reference before) drawn
      ((pictures (reference.scenePieces toolkit window.windowSize now animTick usage)).map
        ((), ·))
      (do
        onDisplay (drawBackground window.windowSize)
        drawAgents now animTick (officeSize window.windowSize) window.app.agents.items
        drawGhosts now animTick (officeSize window.windowSize) window.app.ghosts.items
        if !window.app.connected then onDisplay (drawConnectionBanner window.windowSize)
        onDisplay (drawUsageBar window.windowSize usage)) := by
  unfold App.scenePieces
  rw [map_pictures_cons, map_pictures_append, map_pictures_append, map_pictures_append,
    hwindow.agents, hwindow.ghosts, hwindow.connected]
  refine (writes_onDisplay (paints_drawBackground _)).bind fun _ => ?_
  refine (writes_drawAgents htexts hnow hseen animTick _ _).bind fun _ => ?_
  refine (writes_drawGhosts htexts animTick _ _).bind fun _ => ?_
  have husage : Writes (Stage seen reference before) drawn
      ((pictures [usagePicture toolkit window.windowSize usage]).map ((), ·))
      (onDisplay (drawUsageBar window.windowSize usage)) := by
    rw [pictures_singleton]
    exact writes_onDisplay (paints_drawUsageBar _ _)
  cases reference.connected with
  | true => exact (writes_pure ()).bind fun _ => husage
  | false =>
      rw [if_neg Bool.false_ne_true, pictures_singleton]
      exact (writes_onDisplay (paints_drawConnectionBanner _)).bind fun _ => husage

/-- **What `_draw` does.**  The scene of the state, presented; or, when a piece of it cannot be
drawn, the exception and the frame that was there before. -/
theorem run_draw (htexts : toolkit.RendersTexts) (hnow : now ∈ seen)
    (hseen : ∀ t ∈ seen, t ≤ now) {window : Window toolkit}
    (hwindow : App.Sheds seen reference window.app) (animTick : ℚ) (usage : UsageSnapshot) :
    (∀ ops, reference.scene toolkit window.windowSize now animTick usage = .ok ops →
      ∃ window', (draw now animTick usage).run window = .ok () window' ∧
        Stage seen reference { window with
          display := { window.display with presented := some ops } } window') ∧
    ∀ exception, reference.scene toolkit window.windowSize now animTick usage =
        .error exception →
      ∃ window', (draw now animTick usage).run window = .error exception window' ∧
        Stage seen reference window window' := by
  -- the screen has been filled, and nothing has been drawn over that
  let filled : Window toolkit :=
    { window with display := { window.display with screen := [.fill bgColor] } }
  have hstage : Stage seen reference window filled := ⟨⟨hwindow, rfl, rfl, rfl⟩, rfl⟩
  obtain ⟨hok, herror⟩ := @writes_scenePieces _ seen reference window now htexts hnow hseen window
    hwindow animTick usage filled hstage
  have hrun : (draw now animTick usage).run window =
      ((do
        onDisplay (drawBackground window.windowSize)
        drawAgents now animTick (officeSize window.windowSize) window.app.agents.items
        drawGhosts now animTick (officeSize window.windowSize) window.app.ghosts.items
        if !window.app.connected then onDisplay (drawConnectionBanner window.windowSize)
        onDisplay (drawUsageBar window.windowSize usage) : EStateM PyErr (Window toolkit) Unit) >>=
        fun _ => onDisplay (modify fun display =>
          { display with presented := some display.screen })).run filled := by
    unfold draw
    rw [EStateM.run_bind, EStateM.run_get]
    dsimp only
    cases window.app.connected with
    | true =>
        simp only [bind_assoc, Bool.not_true, Bool.false_eq_true, if_false]
        rfl
    | false =>
        simp only [bind_assoc, Bool.not_false, if_true]
        rfl
  rw [hrun, EStateM.run_bind]
  constructor
  · intro ops hscene
    unfold App.scene at hscene
    cases hpieces : pictures (reference.scenePieces toolkit window.windowSize now animTick usage)
      with
    | error exception =>
        rw [hpieces] at hscene
        cases hscene
    | ok pieces =>
        rw [hpieces] at hscene hok
        cases hscene
        obtain ⟨drawn', hdrawn, hscreen, hkept⟩ := hok () pieces rfl
        rw [hdrawn]
        exact ⟨_, rfl, ⟨hkept.app, hkept.queue, hkept.windowSize, hkept.running⟩,
          congrArg some hscreen⟩
  · intro exception hscene
    unfold App.scene at hscene
    cases hpieces : pictures (reference.scenePieces toolkit window.windowSize now animTick usage)
      with
    | ok pieces =>
        rw [hpieces] at hscene
        cases hscene
    | error raised =>
        rw [hpieces] at hscene herror
        cases hscene
        obtain ⟨left, hleft, hkept⟩ := herror exception rfl
        rw [hleft]
        exact ⟨left, rfl, hkept⟩

/-! ## Behind the scene -/

theorem Backstage.onDisplay {window : Window toolkit} (h : Backstage seen reference before window)
    (method : EStateM PyErr (Display toolkit) α) :
    Backstage seen reference before (after ((Window.onDisplay method).run window)) := by
  show Backstage seen reference before (after (Window.onDisplay method window))
  unfold Window.onDisplay
  cases method.run window.display <;> exact ⟨h.app, h.queue, h.windowSize, h.running⟩

theorem Backstage.onApp {window : Window toolkit} (h : Backstage seen reference before window)
    {method : EStateM PyErr App α}
    (hmethod : App.Sheds seen reference (after (method.run window.app))) :
    Backstage seen reference before (after ((Window.onApp method).run window)) := by
  show Backstage seen reference before (after (Window.onApp method window))
  unfold Window.onApp
  cases hrun : method.run window.app with
  | ok value app =>
      rw [hrun] at hmethod
      exact ⟨hmethod, h.queue, h.windowSize, h.running⟩
  | error exception app =>
      rw [hrun] at hmethod
      exact ⟨hmethod, h.queue, h.windowSize, h.running⟩

theorem backstage_drawAgents (hnow : now ∈ seen) (hseen : ∀ t ∈ seen, t ≤ now) (animTick : ℚ)
    (officeSize : Int × Int) (items : List (DictKey × Json)) {window : Window toolkit}
    (h : Backstage seen reference before window) :
    Backstage seen reference before
      (after ((drawAgents now animTick officeSize items).run window)) := by
  induction items generalizing window with
  | nil => exact h
  | cons item rest ih =>
      obtain ⟨sid, agent⟩ := item
      unfold drawAgents
      rw [EStateM.run_bind, EStateM.run_get]
      dsimp only
      cases window.app.layout.deskRect sid officeSize with
      | none => exact ih h
      | some rect =>
          refine after_bind (h.onApp ?_) fun alpha faded hfaded => after_bind (hfaded.onApp ?_)
            fun boost flashed hflashed => after_bind (hflashed.onDisplay _) fun _ _ => ih
          · obtain ⟨app, hrun, happ⟩ := App.run_spawnAlpha h.app hnow hseen sid
            rw [hrun]
            exact happ
          · cases hobject : agent.isObject with
            | true =>
                obtain ⟨app, hrun, happ⟩ :=
                  App.run_askingBoost hfaded.app hnow hseen sid hobject
                rw [hrun]
                exact happ
            | false =>
                rcases App.run_askingBoost_of_not_isObject faded.app now sid hobject with
                  hrun | hrun <;> (rw [hrun]; exact hfaded.app)

theorem backstage_drawGhosts (animTick : ℚ) (officeSize : Int × Int)
    (items : List (DictKey × Ghost)) {window : Window toolkit}
    (h : Backstage seen reference before window) :
    Backstage seen reference before
      (after ((drawGhosts now animTick officeSize items).run window)) := by
  induction items generalizing window with
  | nil => exact h
  | cons item rest ih =>
      obtain ⟨sid, ghost⟩ := item
      unfold drawGhosts
      rw [EStateM.run_bind, EStateM.run_get]
      dsimp only
      cases window.app.layout.deskRect sid officeSize with
      | none => exact ih h
      | some rect => exact after_bind (h.onDisplay _) fun _ _ => ih

/-- **Drawing touches nothing but timers that are over**, also when it raises, whatever fonts
and surfaces do. -/
theorem backstage_draw (now animTick : ℚ) (usage : UsageSnapshot) (window : Window toolkit) :
    Backstage [now] window.app window (after ((draw now animTick usage).run window)) := by
  have hnow : now ∈ [now] := List.mem_singleton.mpr rfl
  have hseen : ∀ t ∈ [now], t ≤ now := fun t ht => (List.mem_singleton.mp ht).le
  have hstart : Backstage [now] window.app window window := ⟨.refl _, rfl, rfl, rfl⟩
  unfold draw
  rw [EStateM.run_bind, EStateM.run_get]
  dsimp only
  refine after_bind (hstart.onDisplay _) fun _ _ hfilled => ?_
  refine after_bind (hfilled.onDisplay _) fun _ _ hbackground => ?_
  refine after_bind (backstage_drawAgents hnow hseen _ _ _ hbackground) fun _ _ hagents => ?_
  refine after_bind (backstage_drawGhosts _ _ _ hagents) fun _ _ hghosts => ?_
  split
  · exact after_bind (hghosts.onDisplay _) fun _ _ hbanner =>
      after_bind (hbanner.onDisplay _) fun _ _ husage => husage.onDisplay _
  · exact after_bind (hghosts.onDisplay _) fun _ _ husage => husage.onDisplay _

end Window

end Frontend
end SiliconOffice
