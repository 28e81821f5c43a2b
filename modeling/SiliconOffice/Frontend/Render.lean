import Mathlib.Algebra.Field.Rat
import SiliconOffice.Frontend.App
import SiliconOffice.Frontend.Sprites
import SiliconOffice.Frontend.Usage
import SiliconOffice.Library.Fade
import SiliconOffice.Library.Memo

/-!
# Drawing the office

What is drawn in a frame is the list of calls that reach the screen, in their order.  A desk
is drawn on a surface of its own first (`deskContents`), and that surface is blitted at the
place of the desk, faded when the session comes or goes.

Texts and the background come from caches, which live on from frame to frame.  A cache holds
nothing but what rendering gives (`TextCache`, `BackgroundCache`), so that nothing on the
screen depends on what it holds.

pygame and `math.sin` are parameters: a `Toolkit`.
-/

namespace SiliconOffice
namespace Frontend

open Library Python

/-! ## Theme -/

def bgColor : Color := (30, 32, 40)

def floorColorA : Color := (44, 47, 58)

def floorColorB : Color := (40, 43, 53)

def deskColor : Color := (92, 68, 48)

def deskTopColor : Color := (120, 90, 64)

def paperColor : Color := (54, 57, 68)

def paperLineColor : Color := (150, 155, 168)

def textColor : Color := (235, 235, 240)

def subtextColor : Color := (170, 175, 185)

def bannerColor : Color := (220, 90, 90)

/-- `DISCONNECTED_OVERLAY`: a colour and its alpha. -/
def disconnectedOverlay : Color × ℕ := ((10, 10, 14), 140)

def usageBarBgColor : Color := (24, 25, 32)

def usageBarBorderColor : Color := (55, 58, 70)

def usageTextColor : Color := (225, 227, 232)

def usageLabelColor : Color := (140, 145, 158)

/-- `USAGE_BAR_HEIGHT`. -/
def usageBarHeight : Int := 34

/-- `SPAWN_ANIM_SECONDS`. -/
def spawnAnimSeconds : ℚ := 3 / 10

/-- `ASKING_FLASH_SECONDS`. -/
def askingFlashSeconds : ℚ := 1

/-- `color_for_state`. -/
def colorForState (state : Json) : Except PyErr Color :=
  Sprites.forState
    [("idle", (90, 130, 200)), ("working", (90, 190, 110)), ("asking", (235, 165, 60)),
     ("error", (215, 70, 70))] (90, 130, 200) state

/-! ## Surfaces -/

/-- The fonts that the frontend loads, by what they are for. -/
inductive Font
  | name
  | label
  | id
  | banner
  | usage
  deriving DecidableEq

/-- A text as `font.render` returns it. -/
structure TextSurface where
  font : Font
  text : Json
  color : Color
  width : ℕ
  height : ℕ

/-- What drawing asks of pygame, of `math` and of string formatting. -/
structure Toolkit where
  /-- `font.render(text, True, color)`. -/
  render : Font → Json → Color → Except PyErr TextSurface
  /-- `font.size(text)[0]`. -/
  textWidth : Font → String → ℕ
  /-- `pygame.Surface(size)`, which raises when a side is negative. -/
  surface : Int × Int → Except PyErr Unit
  /-- `surface.fill(color, (left, top, width, height))`. -/
  fill : Raster Color → Color → ℕ → ℕ → ℕ → ℕ → Raster Color
  /-- `math.sin`. -/
  sin : ℚ → ℚ
  /-- `f"{value:.1f}"`. -/
  oneDecimal : Number → String

/-- One call that draws on a surface. -/
inductive DrawOp
  | rect (color : Color) (rect : Rect) (width borderRadius : ℕ)
  | circle (color : Color) (alpha : Int) (center : Int × Int) (radius : Int) (width : ℕ)
  | line (color : Color) (start stop : Int × Int)
  | blit (surface : Raster Color) (topleft : Int × Int)

/-- One call that draws on the screen. -/
inductive ScreenOp
  | fill (color : Color)
  | blit (surface : Raster Color) (topleft : Int × Int)
  /-- The surface of a desk, with the alpha that it was set to. -/
  | desk (contents : List DrawOp) (alpha : Option Int) (topleft : Int × Int)
  | text (surface : TextSurface) (alpha : Option Int) (topleft : Int × Int)
  | overlay (color : Color) (alpha : ℕ) (size : Int × Int)
  | draw (op : DrawOp)

namespace Rect

def size (rect : Rect) : Int × Int := (rect.width, rect.height)

def topleft (rect : Rect) : Int × Int := (rect.left, rect.top)

def centerx (rect : Rect) : Int := rect.left + rect.width / 2

def move (dx dy : Int) (rect : Rect) : Rect :=
  { rect with left := rect.left + dx, top := rect.top + dy }

end Rect

/-! ## Caches -/

section caches

variable (toolkit : Toolkit)

/-- An entry of a text cache is what the font renders. -/
def Rendered (font : Font) (_ : DictKey) (entry : Json × Color × TextSurface) : Prop :=
  toolkit.render font entry.1 entry.2.1 = .ok entry.2.2

/-- `TextCache`.  The second half of the key is the same for all keys of a cache. -/
abbrev TextCache (font : Font) := Memo (Rendered toolkit font)

/-- What `get` does when the text is not in the cache. -/
def TextCache.miss {font : Font} (cache : TextCache toolkit font) (key : DictKey) (text : Json)
    (color : Color) : Except PyErr (TextSurface × TextCache toolkit font) :=
  match hrender : toolkit.render font text color with
  | .ok surface => .ok (surface, cache.store key (text, color, surface) fun _ _ => hrender)
  | .error exception => .error exception

/-- `TextCache.get`. -/
def TextCache.get {font : Font} (cache : TextCache toolkit font) (key : DictKey) (text : Json)
    (color : Color) : Except PyErr (TextSurface × TextCache toolkit font) :=
  match cache.get? key with
  | some (cachedText, cachedColor, surface) =>
      if Json.eq cachedText text && cachedColor == color then .ok (surface, cache)
      else cache.miss toolkit key text color
  | none => cache.miss toolkit key text color

end caches

/-- `_TILE_SIZE`. -/
def tileSize : ℕ := 48

/-- `range(0, stop, step)`. -/
def rangeBy (step : ℕ) (stop : Int) : List ℕ :=
  (List.range ((stop.toNat + step - 1) / step)).map (· * step)

/-- The two loops of `draw_background`. -/
def paintBackground (toolkit : Toolkit) (size : Int × Int) : Raster Color :=
  let tiles := (rangeBy tileSize size.2).flatMap fun ty =>
    (rangeBy tileSize size.1).map fun tx => (tx, ty)
  tiles.foldl
    (fun surface tile =>
      let (tx, ty) := tile
      let even := (tx / tileSize + ty / tileSize) % 2 == 0
      toolkit.fill surface (if even then floorColorA else floorColorB) tx ty tileSize tileSize)
    -- a new surface is black
    (.blank size.1.toNat size.2.toNat (some (0, 0, 0)))

/-- `_background_cache`: what is in it has been painted. -/
abbrev BackgroundCache (toolkit : Toolkit) :=
  Memo fun (size : Int × Int) surface =>
    toolkit.surface size = .ok () ∧ surface = paintBackground toolkit size

/-- What lives on from frame to frame, and what has been drawn. -/
structure Display (toolkit : Toolkit) where
  /-- `name_cache`, `label_cache` and `id_cache`; the other fonts have none. -/
  textCache : (font : Font) → TextCache toolkit font
  backgroundCache : BackgroundCache toolkit
  /-- What has been drawn since the screen was filled. -/
  screen : List ScreenOp
  /-- What was on the screen at the last `pygame.display.flip()`. -/
  presented : Option (List ScreenOp)

/-- Before the first frame. -/
def Display.initial (toolkit : Toolkit) : Display toolkit where
  textCache _ := .empty
  backgroundCache := .empty
  screen := []
  presented := none

/-! ## Drawing functions -/

section drawing

variable {toolkit : Toolkit}

/-- A call on the screen. -/
def put (op : ScreenOp) : EStateM PyErr (Display toolkit) Unit :=
  modify fun display => { display with screen := display.screen ++ [op] }

/-- `name_cache.get`, `label_cache.get` and `id_cache.get`. -/
def cachedText (font : Font) (key : DictKey) (text : Json) (color : Color) :
    EStateM PyErr (Display toolkit) TextSurface := do
  let display ← get
  let (surface, cache) ← raising ((display.textCache font).get toolkit key text color)
  set { display with textCache := Function.update display.textCache font cache }
  return surface

/-- `draw_background`. -/
def drawBackground (size : Int × Int) : EStateM PyErr (Display toolkit) Unit := do
  let display ← get
  match display.backgroundCache.get? size with
  | some cached => put (.blit cached (0, 0))
  | none =>
      match hsurface : toolkit.surface size with
      | .error exception => throw exception
      | .ok () =>
          let painted := paintBackground toolkit size
          set { display with
            backgroundCache := display.backgroundCache.store size painted fun other hsame => by
              rw [eq_of_beq hsame]
              exact ⟨hsurface, rfl⟩ }
          put (.blit painted (0, 0))

/-- `_PAPER_GAP`. -/
def paperGap : Int := 3

/-- `_draw_papers`. -/
def drawPapers (deskRectLocal : Rect) (topY : Int) : List DrawOp :=
  let availH := max 1 (deskRectLocal.bottom - topY)
  let cell := max 2 (min (pixelScale : Int) (availH / 4))
  let paperW := 3 * cell
  let paperH := 4 * cell
  let totalW := paperW * 2 + paperGap
  let leftX := deskRectLocal.centerx - totalW / 2
  let rightX := leftX + paperW + paperGap
  let lineH := max 1 (cell / 3)
  [leftX, rightX].flatMap fun paperX =>
    .rect paperColor ⟨paperX, topY, paperW, paperH⟩ 0 0 ::
      [1, 2, 3].map fun row =>
        .rect paperLineColor
          ⟨paperX + cell / 2, topY + row * cell - lineH / 2, paperW - cell, lineH⟩ 0 0

/-- The pulsing ring around an avatar that asks. -/
def askingRing (toolkit : Toolkit) (color : Color) (sprite : Raster Color) (width spriteY : Int)
    (animTick highlightBoost : ℚ) : DrawOp :=
  let pulse := 1 / 2 + 1 / 2 * |toolkit.sin (animTick * 4)|
  let radius := intOf
    ((max sprite.width sprite.height : ℕ) * (62 / 100) + pulse * 10 + highlightBoost * 14)
  let ringAlpha := min 255 (intOf (120 + pulse * 100 + highlightBoost * 35))
  -- drawn on a transparent surface of the same size, which is blitted at its origin
  .circle color ringAlpha (width / 2, spriteY + (sprite.height : Int) / 2) radius 4

/-- What `draw_agent` draws on the surface of the desk. -/
def deskContents (toolkit : Toolkit) (state : Json) (color : Color) (sprite : Raster Color)
    (size : Int × Int) (animTick highlightBoost : ℚ) : List DrawOp :=
  let deskH := size.2 / 3
  let deskRectLocal : Rect := ⟨0, size.2 - deskH, size.1, deskH⟩
  let spriteX := (size.1 - sprite.width) / 2
  let spriteY := deskRectLocal.top - sprite.height + 10
  let ring :=
    if state.isText "asking" then
      [askingRing toolkit color sprite size.1 spriteY animTick highlightBoost]
    else []
  let hands :=
    if state.isText "working" || state.isText "asking" then
      let handY := Sprites.handRowIndex * pixelScale
      let handBottom := spriteY + handY + pixelScale
      drawPapers deskRectLocal (handBottom + paperGap) ++
        [.blit (sprite.subsurface 0 handY sprite.width pixelScale) (spriteX, spriteY + handY)]
    else []
  let badgeRadius := min 10 (max 5 (deskH / 3))
  let badgeX := deskRectLocal.right - badgeRadius - 4
  -- `midbottom` is put at the back edge of the desk
  let badgeSquare : Rect :=
    ⟨badgeX - badgeRadius, deskRectLocal.top - badgeRadius * 2, badgeRadius * 2, badgeRadius * 2⟩
  ring ++
    [.blit sprite (spriteX, spriteY), .rect deskColor deskRectLocal 0 4,
      .rect deskTopColor deskRectLocal 3 4] ++
    hands ++
    [.rect color badgeSquare 0 0,
      .circle color 255 (badgeSquare.centerx, badgeSquare.top) badgeRadius 0]

/-- `set_alpha(int(255 * clamped_alpha))`, unless the surface is opaque. -/
def fadeOf (alpha : ℚ) : Option Int :=
  let clampedAlpha := unitClamp alpha
  if clampedAlpha < 1 then some (intOf (255 * clampedAlpha)) else none

/-- The loop over the three texts, from the bottom of the desk upwards. -/
def blitTexts (rect : Rect) (alpha : Option Int) : Int → List TextSurface → List ScreenOp
  | _, [] => []
  | textY, surf :: rest =>
      let tx := rect.left + (rect.width - surf.width) / 2
      let textY := textY - (surf.height + 2)
      .text surf alpha (tx, textY) :: blitTexts rect alpha textY rest

/-- `session_id[:8]`; only strings and lists have slices, and a list is no key. -/
def shortId : Json → Except PyErr Json
  | .str text => .ok (.str (upTo 8 text))
  | _ => .error .typeError

/-- `draw_agent`. -/
def drawAgent (rect : Rect) (agent : Json) (animTick alpha highlightBoost : ℚ) :
    EStateM PyErr (Display toolkit) Unit := do
  let state ← raising (agent.get "state" (.str "idle"))
  let color ← raising (colorForState state)
  raising (toolkit.surface rect.size)
  let sprite ← raising (Sprites.getSpriteSurface toolkit.fill state animTick)
  put (.desk (deskContents toolkit state color sprite rect.size animTick highlightBoost)
    (fadeOf alpha) rect.topleft)
  let sessionId ← raising (agent.get "session_id" (.str ""))
  let projectName ← raising (agent.get "project_name" (.str "?"))
  let key ← raising sessionId.hash
  let nameSurf ← cachedText .name key projectName textColor
  let actionLabel ← raising (agent.get "action_label" (.str ""))
  let labelSurf ← cachedText .label key actionLabel color
  let idText ← raising (shortId sessionId)
  let idSurf ← cachedText .id key idText subtextColor
  modify fun display =>
    { display with
      screen := display.screen ++
        blitTexts rect (fadeOf alpha) (rect.bottom - 4) [idSurf, labelSurf, nameSurf] }

/-- `draw_connection_banner`. -/
def drawConnectionBanner (windowSize : Int × Int) : EStateM PyErr (Display toolkit) Unit := do
  raising (toolkit.surface windowSize)
  put (.overlay disconnectedOverlay.1 disconnectedOverlay.2 windowSize)
  let text ← raising (toolkit.render .banner (.str "Reconnecting to daemon...") bannerColor)
  put (.text text none ((windowSize.1 - text.width) / 2, 12))

/-- `_blit_stat`. -/
def blitStat (label stat : String) (x centerY : Int) : EStateM PyErr (Display toolkit) Int := do
  let labelSurf ← raising (toolkit.render .usage (.str (label ++ "  ")) usageLabelColor)
  let statSurf ← raising (toolkit.render .usage (.str stat) usageTextColor)
  put (.text labelSurf none (x, centerY - (labelSurf.height : Int) / 2))
  let x := x + labelSurf.width
  put (.text statSurf none (x, centerY - (statSurf.height : Int) / 2))
  return x + statSurf.width

/-- `PRO_SESSION_CAP_USD` and `PRO_WEEK_CAP_USD`. -/
def proSessionCapUsd : ℚ := 20

def proWeekCapUsd : ℚ := 100

/-- `min(cost / cap * 100, 100.0)`; a NaN is not less than anything. -/
def percentOf (cap : ℚ) (cost : Number) : Number :=
  match cost.scale (1 / cap * 100) with
  | .finite value => .finite (min value 100)
  | .infinity true => .infinity true
  | .infinity false => .finite 100
  | .nan => .nan

/-- `draw_usage_bar`. -/
def drawUsageBar (windowSize : Int × Int) (usage : UsageSnapshot) :
    EStateM PyErr (Display toolkit) Unit := do
  let w := windowSize.1
  put (.draw (.rect usageBarBgColor ⟨0, 0, w, usageBarHeight⟩ 0 0))
  put (.draw (.line usageBarBorderColor (0, usageBarHeight - 1) (w, usageBarHeight - 1)))
  let pad := 16
  let centerY := usageBarHeight / 2
  let sessionStat := toolkit.oneDecimal (percentOf proSessionCapUsd usage.sessionCost) ++ "%"
  let weekStat := toolkit.oneDecimal (percentOf proWeekCapUsd usage.weekCost) ++ "%"
  let _ ← blitStat "Session %" sessionStat pad centerY
  let weekWidth := toolkit.textWidth .usage "Week %  " + toolkit.textWidth .usage weekStat
  let _ ← blitStat "Week %" weekStat (w - pad - weekWidth) centerY

end drawing

end Frontend
end SiliconOffice
