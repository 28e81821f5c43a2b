import SiliconOffice.Frontend.Render
import SiliconOffice.Library.Writers

/-!
# What the drawing functions draw

The drawing functions take texts and the background from caches.  `Paints` says what a
drawing function adds to the screen without a word about caches; it is proved statement by
statement, and `paints_drawAgent`, `paints_drawBackground`, `paints_drawConnectionBanner` and
`paints_drawUsageBar` are its results.  `picture` is an agent drawn from scratch.
-/

namespace SiliconOffice
namespace Frontend

open Library Python

/-- `font.render` renders strings, and `None` as an empty text; it raises for every other
value. -/
def Toolkit.RendersTexts (toolkit : Toolkit) : Prop :=
  ∀ font text color surface, toolkit.render font text color = .ok surface →
    text = .null ∨ ∃ written, text = .str written

variable {toolkit : Toolkit} {α β : Type}

/-! ## Caches -/

theorem eq_of_rendered (htexts : toolkit.RendersTexts) {font : Font} {known text : Json}
    {color : Color} {surface : TextSurface}
    (hrender : toolkit.render font known color = .ok surface)
    (hsame : Json.eq known text = true) : text = known := by
  rcases htexts font known color surface hrender with rfl | ⟨written, rfl⟩
  · cases text with
    | null => rfl
    | float value => cases value <;> cases DictKey.beq_iff.mp hsame
    | bool value => cases DictKey.beq_iff.mp hsame
    | int value => cases DictKey.beq_iff.mp hsame
    | str written => cases DictKey.beq_iff.mp hsame
    | arr items => cases hsame
    | obj members => cases hsame
  · exact Json.eq_str hsame

theorem TextCache.miss_eq {font : Font} (cache : TextCache toolkit font) (key : DictKey)
    (text : Json) (color : Color) :
    (∃ surface cache', cache.miss toolkit key text color = .ok (surface, cache') ∧
        toolkit.render font text color = .ok surface) ∨
      ∃ exception, cache.miss toolkit key text color = .error exception ∧
        toolkit.render font text color = .error exception := by
  unfold TextCache.miss
  split
  · rename_i surface hrender
    exact .inl ⟨surface, _, rfl, hrender⟩
  · rename_i exception hrender
    exact .inr ⟨exception, rfl, hrender⟩

/-- **A cached text is the rendered text.** -/
theorem TextCache.get_eq (htexts : toolkit.RendersTexts) {font : Font}
    (cache : TextCache toolkit font) (key : DictKey) (text : Json) (color : Color) :
    (∃ surface cache', cache.get toolkit key text color = .ok (surface, cache') ∧
        toolkit.render font text color = .ok surface) ∨
      ∃ exception, cache.get toolkit key text color = .error exception ∧
        toolkit.render font text color = .error exception := by
  unfold TextCache.get
  cases hget : Memo.get? cache key with
  | none => exact cache.miss_eq key text color
  | some entry =>
      obtain ⟨known, knownColor, surface⟩ := entry
      dsimp only
      split
      · rename_i hsame
        rw [Bool.and_eq_true] at hsame
        have hvalid : toolkit.render font known knownColor = .ok surface :=
          Memo.valid cache key _ hget
        rw [← eq_of_rendered htexts hvalid hsame.1, eq_of_beq hsame.2] at hvalid
        exact .inl ⟨surface, cache, rfl, hvalid⟩
      · exact cache.miss_eq key text color

/-! ## What a drawing function adds to the screen -/

/-- Whatever the caches hold, the method comes to this value and draws this, or it raises
this; what was presented stays. -/
def Paints (sketch : Except PyErr (α × List ScreenOp))
    (method : EStateM PyErr (Display toolkit) α) : Prop :=
  ∀ presented, Writes (fun display => display.presented = presented) Display.screen sketch method

theorem paints_pure (value : α) :
    Paints (.ok (value, [])) (pure value : EStateM PyErr (Display toolkit) α) :=
  fun _ => writes_pure value

theorem paints_raising (result : Except PyErr α) :
    Paints (result.map (·, [])) (raising result : EStateM PyErr (Display toolkit) α) := by
  intro presented
  cases result with
  | ok value => exact writes_pure value
  | error exception => exact writes_throw exception

theorem paints_draw {method : EStateM PyErr (Display toolkit) Unit} (ops : List ScreenOp)
    (h : ∀ display, ∃ display', method.run display = .ok () display' ∧
      display'.screen = display.screen ++ ops ∧ display'.presented = display.presented) :
    Paints (.ok ((), ops)) method := by
  intro presented
  apply writes_of_ok
  intro display hdisplay
  obtain ⟨display', hrun, hscreen, hpresented⟩ := h display
  exact ⟨display', hrun, hscreen, hpresented.trans hdisplay⟩

theorem paints_put (op : ScreenOp) :
    Paints (.ok ((), [op])) (put op : EStateM PyErr (Display toolkit) Unit) :=
  paints_draw [op] fun _ => ⟨_, rfl, rfl, rfl⟩

theorem paints_cachedText (htexts : toolkit.RendersTexts) (font : Font) (key : DictKey)
    (text : Json) (color : Color) :
    Paints ((toolkit.render font text color).map (·, []))
      (cachedText font key text color : EStateM PyErr (Display toolkit) TextSurface) := by
  intro presented
  cases hrender : toolkit.render font text color with
  | ok surface =>
      apply writes_of_ok
      intro display hdisplay
      unfold cachedText
      rw [EStateM.run_bind, EStateM.run_get]
      dsimp only
      rcases (display.textCache font).get_eq htexts key text color with
        ⟨found, cache, hget, hfound⟩ | ⟨exception, -, hfound⟩
      · rw [hget, EStateM.run_bind, run_raising_ok]
        cases hrender.symm.trans hfound
        exact ⟨_, rfl, (List.append_nil _).symm, hdisplay⟩
      · cases hrender.symm.trans hfound
  | error exception =>
      apply writes_of_error
      intro display hdisplay
      unfold cachedText
      rw [EStateM.run_bind, EStateM.run_get]
      dsimp only
      rcases (display.textCache font).get_eq htexts key text color with
        ⟨found, cache, -, hfound⟩ | ⟨exception', hget, hfound⟩
      · cases hrender.symm.trans hfound
      · rw [hget, EStateM.run_bind, run_raising_error]
        cases hrender.symm.trans hfound
        exact ⟨display, rfl, hdisplay⟩

theorem Paints.bind {first : Except PyErr (α × List ScreenOp)}
    {next : α → Except PyErr (β × List ScreenOp)} {method : EStateM PyErr (Display toolkit) α}
    {rest : α → EStateM PyErr (Display toolkit) β} (hfirst : Paints first method)
    (hnext : ∀ value, Paints (next value) (rest value)) :
    Paints (andThen first next) (method >>= rest) :=
  fun presented => (hfirst presented).bind fun value => hnext value presented

/-- A sketch whose first half draws nothing. -/
theorem map_bind_eq_andThen {first : Except PyErr α} {next : α → Except PyErr (List ScreenOp)}
    {rest : α → Except PyErr (Unit × List ScreenOp)}
    (h : ∀ value, (next value).map ((), ·) = rest value) :
    (first >>= next).map ((), ·) = andThen (first.map (·, [])) rest := by
  cases first with
  | error exception => rfl
  | ok value =>
      show (next value).map _ = (rest value).map _
      rw [← h value]
      cases next value <;> rfl

/-! ## The drawing functions -/

/-- The texts of an agent, rendered anew. -/
def pictureTexts (toolkit : Toolkit) (rect : Rect) (agent : Json) (color : Color) (alpha : ℚ) :
    Except PyErr (List ScreenOp) := do
  let sessionId ← agent.get "session_id" (.str "")
  let projectName ← agent.get "project_name" (.str "?")
  let _ ← sessionId.hash
  let nameSurf ← toolkit.render .name projectName textColor
  let actionLabel ← agent.get "action_label" (.str "")
  let labelSurf ← toolkit.render .label actionLabel color
  let idText ← shortId sessionId
  let idSurf ← toolkit.render .id idText subtextColor
  .ok (blitTexts rect (fadeOf alpha) (rect.bottom - 4) [idSurf, labelSurf, nameSurf])

/-- What `draw_agent` draws, with every text rendered anew. -/
def picture (toolkit : Toolkit) (rect : Rect) (agent : Json) (animTick alpha highlightBoost : ℚ) :
    Except PyErr (List ScreenOp) := do
  let state ← agent.get "state" (.str "idle")
  let color ← colorForState state
  toolkit.surface rect.size
  let sprite ← Sprites.getSpriteSurface toolkit.fill state animTick
  let texts ← pictureTexts toolkit rect agent color alpha
  .ok (.desk (deskContents toolkit state color sprite rect.size animTick highlightBoost)
    (fadeOf alpha) rect.topleft :: texts)

/-- A picture of an agent, taken to pieces: one desk, and texts. -/
theorem parts_of_picture {rect : Rect} {agent : Json} {animTick alpha boost : ℚ}
    {ops : List ScreenOp} (h : picture toolkit rect agent animTick alpha boost = .ok ops) :
    ∃ state color sprite texts, Sprites.getSpriteSurface toolkit.fill state animTick = .ok sprite ∧
      ops = .desk (deskContents toolkit state color sprite rect.size animTick boost)
        (fadeOf alpha) rect.topleft :: blitTexts rect (fadeOf alpha) (rect.bottom - 4) texts := by
  unfold picture at h
  obtain ⟨state, -, h⟩ := exists_of_bind_ok h
  obtain ⟨color, -, h⟩ := exists_of_bind_ok h
  obtain ⟨surface, -, h⟩ := exists_of_bind_ok h
  obtain ⟨sprite, hsprite, h⟩ := exists_of_bind_ok h
  obtain ⟨ops', htexts, h⟩ := exists_of_bind_ok h
  unfold pictureTexts at htexts
  obtain ⟨sessionId, -, htexts⟩ := exists_of_bind_ok htexts
  obtain ⟨projectName, -, htexts⟩ := exists_of_bind_ok htexts
  obtain ⟨key, -, htexts⟩ := exists_of_bind_ok htexts
  obtain ⟨nameSurf, -, htexts⟩ := exists_of_bind_ok htexts
  obtain ⟨actionLabel, -, htexts⟩ := exists_of_bind_ok htexts
  obtain ⟨labelSurf, -, htexts⟩ := exists_of_bind_ok htexts
  obtain ⟨idText, -, htexts⟩ := exists_of_bind_ok htexts
  obtain ⟨idSurf, -, htexts⟩ := exists_of_bind_ok htexts
  refine ⟨state, color, sprite, [idSurf, labelSurf, nameSurf], hsprite, ?_⟩
  rw [← Except.ok.inj h, ← Except.ok.inj htexts]

/-- **An agent is drawn as if nothing were cached.** -/
theorem paints_drawAgent (htexts : toolkit.RendersTexts) (rect : Rect) (agent : Json)
    (animTick alpha highlightBoost : ℚ) :
    Paints ((picture toolkit rect agent animTick alpha highlightBoost).map ((), ·))
      (drawAgent rect agent animTick alpha highlightBoost :
        EStateM PyErr (Display toolkit) Unit) := by
  unfold picture
  rw [map_bind_eq_andThen fun state => map_bind_eq_andThen fun color =>
    map_bind_eq_andThen fun _ => map_bind_eq_andThen fun sprite => rfl]
  refine (paints_raising _).bind fun state => (paints_raising _).bind fun color =>
    (paints_raising _).bind fun _ => (paints_raising _).bind fun sprite => ?_
  -- the desk, and then the texts
  have hdesk : ∀ (op : ScreenOp) (texts : Except PyErr (List ScreenOp)),
      (do let texts ← texts; .ok (op :: texts) : Except PyErr (List ScreenOp)).map ((), ·) =
        andThen (.ok ((), [op])) fun _ => texts.map ((), ·) := by
    intro op texts
    cases texts <;> rfl
  rw [hdesk]
  refine (paints_put _).bind fun _ => ?_
  unfold pictureTexts
  rw [map_bind_eq_andThen fun sessionId => map_bind_eq_andThen fun projectName =>
    map_bind_eq_andThen fun key => map_bind_eq_andThen fun nameSurf =>
    map_bind_eq_andThen fun actionLabel => map_bind_eq_andThen fun labelSurf =>
    map_bind_eq_andThen fun idText => map_bind_eq_andThen fun idSurf => rfl]
  refine (paints_raising _).bind fun sessionId => (paints_raising _).bind fun projectName =>
    (paints_raising _).bind fun key => (paints_cachedText htexts _ _ _ _).bind fun nameSurf =>
    (paints_raising _).bind fun actionLabel =>
    (paints_cachedText htexts _ _ _ _).bind fun labelSurf =>
    (paints_raising _).bind fun idText =>
    (paints_cachedText htexts _ _ _ _).bind fun idSurf => ?_
  exact paints_draw _ fun _ => ⟨_, rfl, rfl, rfl⟩

/-- The background of this size, painted anew. -/
def backgroundPicture (toolkit : Toolkit) (size : Int × Int) : Except PyErr (List ScreenOp) :=
  (toolkit.surface size).map fun _ => [.blit (paintBackground toolkit size) (0, 0)]

theorem paints_drawBackground (size : Int × Int) :
    Paints ((backgroundPicture toolkit size).map ((), ·))
      (drawBackground size : EStateM PyErr (Display toolkit) Unit) := by
  intro presented
  unfold backgroundPicture
  cases hsurface : toolkit.surface size with
  | ok result =>
      apply writes_of_ok
      intro display hdisplay
      unfold drawBackground
      rw [EStateM.run_bind, EStateM.run_get]
      dsimp only
      split
      · rename_i cached hget
        obtain ⟨-, rfl⟩ := Memo.valid_of_get? hget
        exact ⟨_, rfl, rfl, hdisplay⟩
      · split
        · rename_i exception hraised
          cases hsurface.symm.trans hraised
        · exact ⟨_, rfl, rfl, hdisplay⟩
  | error exception =>
      apply writes_of_error
      intro display hdisplay
      unfold drawBackground
      rw [EStateM.run_bind, EStateM.run_get]
      dsimp only
      split
      · rename_i cached hget
        cases hsurface.symm.trans (Memo.valid_of_get? hget).1
      · split
        · rename_i exception' hraised
          cases hsurface.symm.trans hraised
          exact ⟨display, rfl, hdisplay⟩
        · rename_i hpainted
          cases hsurface.symm.trans hpainted

/-- The banner, with its text rendered anew. -/
def bannerPicture (toolkit : Toolkit) (windowSize : Int × Int) :
    Except PyErr (List ScreenOp) := do
  toolkit.surface windowSize
  let text ← toolkit.render .banner (.str "Reconnecting to daemon...") bannerColor
  .ok [.overlay disconnectedOverlay.1 disconnectedOverlay.2 windowSize,
    .text text none ((windowSize.1 - text.width) / 2, 12)]

theorem paints_drawConnectionBanner (windowSize : Int × Int) :
    Paints ((bannerPicture toolkit windowSize).map ((), ·))
      (drawConnectionBanner windowSize : EStateM PyErr (Display toolkit) Unit) := by
  unfold bannerPicture
  rw [map_bind_eq_andThen fun _ => rfl]
  refine (paints_raising _).bind fun _ => ?_
  -- the overlay is drawn before the text is rendered
  have hoverlay : ∀ (op : ScreenOp) (text : Except PyErr TextSurface)
      (place : TextSurface → ScreenOp),
      (do let text ← text; .ok [op, place text] : Except PyErr (List ScreenOp)).map ((), ·) =
        andThen (.ok ((), [op])) fun _ =>
          andThen (text.map (·, [])) fun text => .ok ((), [place text]) := by
    intro op text place
    cases text <;> rfl
  rw [hoverlay]
  exact (paints_put _).bind fun _ => (paints_raising _).bind fun text => paints_put _

/-- A statistic of the usage bar: its two texts and where the second one ends. -/
def statPicture (toolkit : Toolkit) (label stat : String) (x centerY : Int) :
    Except PyErr (Int × List ScreenOp) := do
  let labelSurf ← toolkit.render .usage (.str (label ++ "  ")) usageLabelColor
  let statSurf ← toolkit.render .usage (.str stat) usageTextColor
  .ok (x + labelSurf.width + statSurf.width,
    [.text labelSurf none (x, centerY - (labelSurf.height : Int) / 2),
     .text statSurf none (x + labelSurf.width, centerY - (statSurf.height : Int) / 2)])

theorem paints_blitStat (label stat : String) (x centerY : Int) :
    Paints (statPicture toolkit label stat x centerY)
      (blitStat label stat x centerY : EStateM PyErr (Display toolkit) Int) := by
  have hsketch : statPicture toolkit label stat x centerY =
      andThen ((toolkit.render .usage (.str (label ++ "  ")) usageLabelColor).map (·, []))
        fun labelSurf =>
      andThen ((toolkit.render .usage (.str stat) usageTextColor).map (·, [])) fun statSurf =>
      andThen (.ok ((), [.text labelSurf none (x, centerY - (labelSurf.height : Int) / 2)]))
        fun _ =>
      andThen (.ok ((), [.text statSurf none
        (x + labelSurf.width, centerY - (statSurf.height : Int) / 2)])) fun _ =>
      .ok (x + labelSurf.width + statSurf.width, []) := by
    unfold statPicture
    cases toolkit.render .usage (.str (label ++ "  ")) usageLabelColor with
    | error exception => rfl
    | ok labelSurf => cases toolkit.render .usage (.str stat) usageTextColor <;> rfl
  rw [hsketch]
  exact (paints_raising _).bind fun _ => (paints_raising _).bind fun _ =>
    (paints_put _).bind fun _ => (paints_put _).bind fun _ => paints_pure _

/-- The usage bar: its ground, the share of the session and, at the right edge, the share of
the week. -/
def usagePicture (toolkit : Toolkit) (windowSize : Int × Int) (usage : UsageSnapshot) :
    Except PyErr (List ScreenOp) := do
  let sessionStat := toolkit.oneDecimal (percentOf proSessionCapUsd usage.sessionCost) ++ "%"
  let weekStat := toolkit.oneDecimal (percentOf proWeekCapUsd usage.weekCost) ++ "%"
  let weekWidth := toolkit.textWidth .usage "Week %  " + toolkit.textWidth .usage weekStat
  let session ← statPicture toolkit "Session %" sessionStat 16 17
  let week ← statPicture toolkit "Week %" weekStat (windowSize.1 - 16 - weekWidth) 17
  .ok (.draw (.rect usageBarBgColor ⟨0, 0, windowSize.1, usageBarHeight⟩ 0 0) ::
    .draw (.line usageBarBorderColor (0, 33) (windowSize.1, 33)) :: session.2 ++ week.2)

theorem paints_drawUsageBar (windowSize : Int × Int) (usage : UsageSnapshot) :
    Paints ((usagePicture toolkit windowSize usage).map ((), ·))
      (drawUsageBar windowSize usage : EStateM PyErr (Display toolkit) Unit) := by
  have hsketch : ∀ (ground border : ScreenOp) (session week : Except PyErr (Int × List ScreenOp)),
      (do
        let session ← session
        let week ← week
        .ok (ground :: border :: session.2 ++ week.2) : Except PyErr (List ScreenOp)).map ((), ·) =
      andThen (.ok ((), [ground])) fun _ => andThen (.ok ((), [border])) fun _ =>
        andThen session fun _ => andThen week fun _ => .ok ((), []) := by
    intro ground border session week
    cases session with
    | error exception => rfl
    | ok session =>
        cases week with
        | error exception => rfl
        | ok week => simp [andThen, Except.map]; rfl
  unfold usagePicture
  dsimp only
  rw [hsketch]
  exact (paints_put _).bind fun _ => (paints_put _).bind fun _ =>
    (paints_blitStat _ _ _ _).bind fun _ => (paints_blitStat _ _ _ _).bind fun _ => paints_pure ()

end Frontend
end SiliconOffice
