import Mathlib.Tactic.FieldSimp
import Mathlib.Tactic.Linarith
import Mathlib.Tactic.NormNum
import SiliconOffice.Frontend.Seating

/-!
# What is painted

* `pixel_paintBackground` — the floor, pixel by pixel;
* `pixel_getSpriteSurface` — an avatar, pixel by pixel and interval by interval;
* `fits_scene` — no desk is drawn over the edge of its surface, at no moment of an animation,
  and every alpha is one.
-/

namespace SiliconOffice
namespace Frontend

open Library Python

variable {toolkit : Toolkit}

/-! ## The floor -/

/-- The colour of a tile. -/
def tileColor (column row : ℕ) : Color :=
  if (column + row) % 2 == 0 then floorColorA else floorColorB

/-- The tiles that the two loops go through. -/
def tiles (size : Int × Int) : List (ℕ × ℕ) :=
  (List.range ((size.2.toNat + tileSize - 1) / tileSize)).flatMap fun row =>
    (List.range ((size.1.toNat + tileSize - 1) / tileSize)).map fun column => (column, row)

/-- When `fill` fills rectangles, the floor is made of its tiles. -/
theorem agrees_paintBackground (hfill : Raster.Fills toolkit.fill) (size : Int × Int) :
    (paintBackground toolkit size).Agrees
      (.fillCells tileSize (fun column row => some (tileColor column row)) (tiles size)
        (.blank size.1.toNat size.2.toNat (some (0, 0, 0)))) := by
  have htile : ∀ column : ℕ, column * tileSize / tileSize = column :=
    fun column => Nat.mul_div_cancel column (by decide)
  unfold paintBackground Raster.fillCells tiles rangeBy
  simp only [List.flatMap_map, List.map_map, List.foldl_flatMap, List.foldl_map,
    Function.comp_apply, htile]
  refine Raster.agrees_foldl (fun row surface raster hrow => ?_) _ (.refl _)
  refine Raster.agrees_foldl (fun column surface raster hcolumn => ?_) _ hrow
  show (toolkit.fill surface (tileColor column row) _ _ _ _).Agrees (raster.fill _ _ _ _ _)
  exact hfill.agrees hcolumn _ _ _ _ _

theorem mem_tiles {size : Int × Int} {x y : ℕ} (hx : x < size.1.toNat) (hy : y < size.2.toNat) :
    (x / tileSize, y / tileSize) ∈ tiles size := by
  have hrange : ∀ {side place : ℕ}, place < side →
      place / tileSize ∈ List.range ((side + tileSize - 1) / tileSize) := by
    intro side place hplace
    rw [List.mem_range]
    unfold tileSize
    omega
  exact List.mem_flatMap.mpr ⟨_, hrange hy, List.mem_map.mpr ⟨_, hrange hx, rfl⟩⟩

/-- **The floor is a chequerboard**, to the last pixel of a window of whatever size. -/
theorem pixel_paintBackground (hfill : Raster.Fills toolkit.fill) (size : Int × Int) :
    (paintBackground toolkit size).width = size.1.toNat ∧
      (paintBackground toolkit size).height = size.2.toNat ∧
      ∀ x y, x < size.1.toNat → y < size.2.toNat →
        (paintBackground toolkit size).pixel x y =
          some (tileColor (x / tileSize) (y / tileSize)) := by
  have hsame := agrees_paintBackground hfill size
  obtain ⟨hwidth, hheight⟩ := @Raster.size_fillCells _ tileSize
    (fun column row => some (tileColor column row)) (tiles size)
    (.blank size.1.toNat size.2.toNat (some (0, 0, 0)))
  refine ⟨hsame.width.trans hwidth, hsame.height.trans hheight, fun x y hx hy => ?_⟩
  rw [hsame.pixel x y (hwidth.symm ▸ hx) (hheight.symm ▸ hy), Raster.pixel_fillCells (by decide),
    if_pos (mem_tiles hx hy)]
  rfl

theorem fills_plainToolkit : Raster.Fills Window.plainToolkit.fill :=
  fun _ _ _ _ _ _ => .refl _

/-- The last pixel of a window that cuts its last tiles off. -/
theorem pixel_paintBackground_corner :
    (paintBackground Window.plainToolkit (100, 50)).pixel 99 49 = some floorColorB :=
  (pixel_paintBackground fills_plainToolkit (100, 50)).2.2 99 49 (by decide) (by decide)

/-! ## The avatars -/

/-- The frames that a state goes through, and how long it shows each of them. -/
def frameSequence (state : String) : List Sprites.Frame :=
  (Sprites.stateFrameSequence.lookup state).getD [.base, .base, .base, .sideEye]

def frameInterval (state : String) : ℚ :=
  (Sprites.stateFrameInterval.lookup state).getD (Sprites.double (9 / 10))

theorem frameInterval_pos (state : String) : 0 < frameInterval state := by
  have hall : ∀ entry ∈ Sprites.stateFrameInterval, 0 < entry.2 := by decide +kernel
  unfold frameInterval
  cases hlookup : Sprites.stateFrameInterval.lookup state with
  | none =>
      show 0 < Sprites.double (9 / 10)
      decide +kernel
  | some interval =>
      obtain ⟨entry, hentry, -, rfl⟩ := Assoc.mem_of_lookup hlookup
      exact hall entry hentry

theorem frameSequence_ne_nil (state : String) : 0 < (frameSequence state).length := by
  have hall : ∀ entry ∈ Sprites.stateFrameSequence, 0 < entry.2.length := by decide
  unfold frameSequence
  cases hlookup : Sprites.stateFrameSequence.lookup state with
  | none => decide
  | some sequence =>
      obtain ⟨entry, hentry, -, rfl⟩ := Assoc.mem_of_lookup hlookup
      exact hall entry hentry

/-- The number of the frame: that of the interval, or the next one when the quotient is rounded
up to it, which it is only at the very end of an interval. -/
theorem intOf_double {interval animTick : ℚ} (hinterval : 0 < interval) {n : ℕ}
    (hstart : n * interval ≤ animTick) (hend : animTick < (n + 1) * interval)
    (hsmall : n + 1 ≤ 2 ^ 53) :
    intOf (Sprites.double (animTick / interval)) = n ∨
      intOf (Sprites.double (animTick / interval)) = n + 1 ∧
        (n + 1) * interval - animTick ≤ animTick / 2 ^ 53 := by
  have hlow : (n : ℚ) ≤ animTick / interval := (le_div_iff₀ hinterval).mpr hstart
  have hhigh : animTick / interval < n + 1 := (div_lt_iff₀ hinterval).mpr hend
  have hnonneg : 0 ≤ Sprites.double (animTick / interval) := by
    have habs : |animTick / interval| < 2 ^ 53 := by
      rw [abs_of_nonneg ((Nat.cast_nonneg n).trans hlow)]
      exact hhigh.trans_le (by exact_mod_cast hsmall)
    have hfrom : ((n : ℤ) : ℚ) ≤ toPrecision 53 (animTick / interval) :=
      le_toPrecision_of_le habs (by exact_mod_cast hlow)
    exact le_trans (by positivity) hfrom
  rw [intOf_eq_floor hnonneg]
  rcases floor_toPrecision hlow hhigh hsmall with hsame | ⟨hnext, hnear⟩
  · exact .inl hsame
  · refine .inr ⟨hnext, ?_⟩
    calc (n + 1) * interval - animTick
        = (n + 1 - animTick / interval) * interval := by field_simp
      _ ≤ animTick / interval / 2 ^ 53 * interval := by gcongr
      _ = animTick / 2 ^ 53 := by field_simp

/-- **An avatar, pixel by pixel.**  During the `n`-th interval since the start it shows frame
`n` of its sequence, which begins again after its end, or already the next one at the very end
of the interval: 70 by 84 pixels, each in the colour of its code. -/
theorem pixel_getSpriteSurface (hfill : Raster.Fills toolkit.fill) (state : String) (n : ℕ)
    (animTick : ℚ) (hstart : n * frameInterval state ≤ animTick)
    (hend : animTick < (n + 1) * frameInterval state) (hsmall : n + 1 ≤ 2 ^ 53) :
    ∃ shown frame sprite,
      (shown = n ∨
        shown = n + 1 ∧ (n + 1) * frameInterval state - animTick ≤ animTick / 2 ^ 53) ∧
      (frameSequence state)[shown % (frameSequence state).length]? = some frame ∧
      Sprites.getSpriteSurface toolkit.fill (.str state) animTick = .ok sprite ∧
      sprite.width = 70 ∧ sprite.height = 84 ∧
      ∀ x y, x < 70 → y < 84 →
        sprite.pixel x y = Sprites.colorAt frame (x / pixelScale) (y / pixelScale) := by
  have hlength := frameSequence_ne_nil state
  obtain ⟨shown, hquotient, hshown⟩ : ∃ shown : ℕ,
      intOf (Sprites.double (animTick / frameInterval state)) = shown ∧
        (shown = n ∨
          shown = n + 1 ∧ (n + 1) * frameInterval state - animTick ≤ animTick / 2 ^ 53) := by
    rcases intOf_double (frameInterval_pos state) hstart hend hsmall with hsame | ⟨hnext, hnear⟩
    · exact ⟨n, hsame, .inl rfl⟩
    · exact ⟨n + 1, by exact_mod_cast hnext, .inr ⟨rfl, hnear⟩⟩
  have hframe : shown % (frameSequence state).length < (frameSequence state).length :=
    Nat.mod_lt _ hlength
  refine ⟨shown, (frameSequence state)[shown % (frameSequence state).length],
    Sprites.renderFrame toolkit.fill (frameSequence state)[shown % (frameSequence state).length],
    hshown, List.getElem?_eq_getElem hframe, ?_, (Sprites.size_renderFrame hfill _).1,
    (Sprites.size_renderFrame hfill _).2, fun x y => Sprites.pixel_renderFrame hfill _⟩
  have hname : Sprites.frameNameFor (.str state) animTick =
      .ok ((frameSequence state).getD
        (intOf (Sprites.double (animTick / frameInterval state)) %
          (frameSequence state).length).toNat .base) := rfl
  have hindex : ((shown : Int) % (frameSequence state).length).toNat =
      shown % (frameSequence state).length := by omega
  rw [hquotient, hindex, List.getD_eq_getElem?_getD, List.getElem?_eq_getElem hframe,
    Option.getD_some] at hname
  unfold Sprites.getSpriteSurface
  rw [hname]
  rfl

/-- 6.3 seconds are less than seven of the doubles that stand for 0.9 seconds, but the quotient
of the doubles is 7. -/
theorem pixel_getSpriteSurface_rounded :
    Sprites.frameNameFor (.str "idle") (Sprites.double (63 / 10)) = .ok .sideEye ∧
      ∃ shown frame sprite,
        (shown = 6 ∨ shown = 6 + 1 ∧
          ((6 : ℕ) + 1) * frameInterval "idle" - Sprites.double (63 / 10) ≤
            Sprites.double (63 / 10) / 2 ^ 53) ∧
        (frameSequence "idle")[shown % (frameSequence "idle").length]? = some frame ∧
        Sprites.getSpriteSurface Window.plainToolkit.fill (.str "idle")
          (Sprites.double (63 / 10)) = .ok sprite ∧
        sprite.width = 70 ∧ sprite.height = 84 ∧
        ∀ x y, x < 70 → y < 84 →
          sprite.pixel x y = Sprites.colorAt frame (x / pixelScale) (y / pixelScale) :=
  ⟨by decide +kernel, pixel_getSpriteSurface fills_plainToolkit "idle" 6
    (Sprites.double (63 / 10)) (by decide +kernel) (by decide +kernel) (by decide)⟩

/-! ## Inside the surface of a desk -/

/-- Nothing of the call falls outside of a surface of this size, and its alpha is one. -/
def DrawOp.Within (size : Int × Int) : DrawOp → Prop
  | .rect _ filled _ _ =>
      0 ≤ filled.left ∧ 0 ≤ filled.top ∧ filled.right ≤ size.1 ∧ filled.bottom ≤ size.2
  | .circle _ alpha center radius _ =>
      0 ≤ radius ∧ 0 ≤ center.1 - radius ∧ 0 ≤ center.2 - radius ∧
        center.1 + radius ≤ size.1 ∧ center.2 + radius ≤ size.2 ∧ 0 ≤ alpha ∧ alpha ≤ 255
  | .line _ start stop =>
      0 ≤ start.1 ∧ start.1 ≤ size.1 ∧ 0 ≤ stop.1 ∧ stop.1 ≤ size.1 ∧
        0 ≤ start.2 ∧ start.2 ≤ size.2 ∧ 0 ≤ stop.2 ∧ stop.2 ≤ size.2
  | .blit surface topleft =>
      0 ≤ topleft.1 ∧ 0 ≤ topleft.2 ∧ topleft.1 + surface.width ≤ size.1 ∧
        topleft.2 + surface.height ≤ size.2

theorem intOf_le_of_lt {value : ℚ} {limit : Int} (hvalue : 0 ≤ value) (h : value < limit + 1) :
    intOf value ≤ limit := by
  rw [intOf_eq_floor hvalue, ← Int.lt_add_one_iff, Int.floor_lt]
  exact_mod_cast h

section desk

variable {sprite : Raster Color} {color : Color} {width : Int} {animTick boost : ℚ}

/-- The ring never reaches the edge, however strong the pulse and the flash. -/
theorem within_askingRing (hsin : ∀ x, |toolkit.sin x| ≤ 1) (hwidth : sprite.width = 70)
    (hheight : sprite.height = 84) (hdesk : 152 ≤ width) (hzero : 0 ≤ boost) (hone : boost ≤ 1) :
    (askingRing toolkit color sprite width 60 animTick boost).Within (width, 200) := by
  have hpulse := hsin (animTick * 4)
  have hnonneg := abs_nonneg (toolkit.sin (animTick * 4))
  have hlonger : (max sprite.width sprite.height : ℕ) = 84 := by
    rw [hwidth, hheight]
    rfl
  unfold askingRing
  dsimp only [DrawOp.Within]
  rw [hlonger, hheight]
  generalize |toolkit.sin (animTick * 4)| = wave at hpulse hnonneg
  have hradius : (0 : ℚ) ≤ (84 : ℕ) * (62 / 100) + (1 / 2 + 1 / 2 * wave) * 10 + boost * 14 := by
    push_cast
    linarith
  have halpha : (0 : ℚ) ≤ 120 + (1 / 2 + 1 / 2 * wave) * 100 + boost * 35 := by linarith
  have hlower := intOf_nonneg hradius
  have hupper : intOf ((84 : ℕ) * (62 / 100) + (1 / 2 + 1 / 2 * wave) * 10 + boost * 14) ≤ 76 := by
    apply intOf_le_of_lt hradius
    push_cast
    linarith
  have hopaque := intOf_nonneg halpha
  refine ⟨hlower, ?_, ?_, ?_, ?_, ?_, ?_⟩ <;> omega

/-- **No desk is drawn over the edge of its surface**, whatever its state and at every moment of
its animations. -/
theorem within_deskContents (hsin : ∀ x, |toolkit.sin x| ≤ 1) (hwidth : sprite.width = 70)
    (hheight : sprite.height = 84) (hdesk : 152 ≤ width) (hzero : 0 ≤ boost) (hone : boost ≤ 1)
    (state : Json) :
    ∀ op ∈ deskContents toolkit state color sprite (width, deskHeight) animTick boost,
      op.Within (width, deskHeight) := by
  intro op hop
  have hthird : (200 : Int) / 3 = 66 := by decide
  have hspriteY : 200 - 66 - (sprite.height : Int) + 10 = 60 := by omega
  unfold deskContents at hop
  simp only [deskHeight, hthird, hspriteY] at hop ⊢
  rcases List.mem_append.mp hop with hbefore | hbadge
  · rcases List.mem_append.mp hbefore with hbefore | hhands
    · rcases List.mem_append.mp hbefore with hring | hsprite
      · split at hring
        · rw [List.mem_singleton.mp hring]
          exact within_askingRing hsin hwidth hheight hdesk hzero hone
        · cases hring
      · simp only [List.mem_cons, List.not_mem_nil, or_false] at hsprite
        rcases hsprite with rfl | rfl | rfl <;>
          simp only [DrawOp.Within, Rect.right, Rect.bottom] <;> omega
    · split at hhands
      · rcases List.mem_append.mp hhands with hpapers | hrow
        · simp only [drawPapers, Rect.bottom, Rect.centerx, Sprites.handRowIndex, pixelScale,
            paperGap, List.flatMap_cons, List.flatMap_nil, List.map_cons, List.map_nil,
            List.append_nil, List.mem_append, List.mem_cons, List.not_mem_nil, or_false]
            at hpapers
          rcases hpapers with (rfl | rfl | rfl | rfl) | rfl | rfl | rfl | rfl <;>
            simp only [DrawOp.Within, Rect.right, Rect.bottom] <;> omega
        · rw [List.mem_singleton.mp hrow]
          simp only [DrawOp.Within, Raster.subsurface, Sprites.handRowIndex, pixelScale]
          omega
      · cases hhands
  · simp only [List.mem_cons, List.not_mem_nil, or_false] at hbadge
    rcases hbadge with rfl | rfl <;>
      simp only [DrawOp.Within, Rect.right, Rect.bottom, Rect.centerx] <;> omega

end desk

/-! ## Frames -/

/-- The alpha of a surface that is not opaque. -/
def IsAlpha (alpha : Option Int) : Prop :=
  ∀ value, alpha = some value → 0 ≤ value ∧ value < 255

theorem isAlpha_fadeOf (alpha : ℚ) : IsAlpha (fadeOf alpha) := by
  intro value hvalue
  unfold fadeOf at hvalue
  dsimp only at hvalue
  split at hvalue
  · rename_i hless
    cases hvalue
    have hnonneg : 0 ≤ 255 * unitClamp alpha := mul_nonneg (by norm_num) (unitClamp_nonneg alpha)
    refine ⟨intOf_nonneg hnonneg, ?_⟩
    rw [← Int.le_sub_one_iff]
    apply intOf_le_of_lt hnonneg
    push_cast
    linarith
  · cases hvalue

/-- What the call draws is not cut off at the edge of a desk, and its alpha is one. -/
def ScreenOp.Fits (width : Int) : ScreenOp → Prop
  | .desk contents alpha _ =>
      (∀ op ∈ contents, op.Within (width, deskHeight)) ∧ IsAlpha alpha
  | .text _ alpha _ => IsAlpha alpha
  | _ => True

theorem fits_blitTexts (rect : Rect) (alpha : ℚ) (width : Int) (texts : List TextSurface)
    (textY : Int) : ∀ op ∈ blitTexts rect (fadeOf alpha) textY texts, op.Fits width := by
  induction texts generalizing textY with
  | nil => exact fun op hop => absurd hop List.not_mem_nil
  | cons text rest ih =>
      intro op hop
      rcases List.mem_cons.mp hop with rfl | hrest
      · exact isAlpha_fadeOf alpha
      · exact ih _ op hrest

section picture

variable {rect : Rect} {agent : Json} {animTick alpha boost : ℚ} {ops : List ScreenOp}

theorem fits_picture (hfill : Raster.Fills toolkit.fill) (hsin : ∀ x, |toolkit.sin x| ≤ 1)
    (hheight : rect.height = deskHeight)
    (hdesk : 152 ≤ rect.width) (hzero : 0 ≤ boost) (hone : boost ≤ 1)
    (h : picture toolkit rect agent animTick alpha boost = .ok ops) :
    ∀ op ∈ ops, op.Fits rect.width := by
  obtain ⟨state, color, sprite, texts, hsprite, rfl⟩ := parts_of_picture h
  obtain ⟨frame, -, hframe⟩ := exists_of_bind_ok hsprite
  obtain ⟨hwidth, hspriteHeight⟩ := Sprites.size_renderFrame hfill frame
  rw [Except.ok.inj hframe] at hwidth hspriteHeight
  intro op hop
  rcases List.mem_cons.mp hop with rfl | htext
  · refine ⟨?_, isAlpha_fadeOf alpha⟩
    rw [show rect.size = (rect.width, deskHeight) from Prod.ext rfl hheight]
    exact within_deskContents hsin hwidth hspriteHeight hdesk hzero hone state
  · exact fits_blitTexts rect alpha _ _ _ op htext

theorem fits_deskPicture (hfill : Raster.Fills toolkit.fill) (hsin : ∀ x, |toolkit.sin x| ≤ 1)
    {layout : Layout}
    {officeSize : Int × Int} {sid : DictKey} (hoffice : 180 ≤ officeSize.1) (hzero : 0 ≤ boost)
    (hone : boost ≤ 1)
    (h : deskPicture toolkit layout officeSize sid agent animTick alpha boost = .ok ops) :
    ∀ op ∈ ops, op.Fits (min officeSize.1 deskMaxWidth - deskMargin) := by
  cases hrect : layout.deskRect sid officeSize with
  | none =>
      rw [deskPicture_of_none hrect] at h
      rw [← Except.ok.inj h]
      exact fun op hop => absurd hop List.not_mem_nil
  | some rect =>
      rw [deskPicture_of_some hrect] at h
      obtain ⟨slot, -, rfl⟩ := Layout.deskRect_eq_some_iff.mp hrect
      refine fits_picture hfill hsin rfl ?_ hzero hone h
      show 152 ≤ min officeSize.1 deskMaxWidth - deskMargin
      unfold deskMaxWidth deskMargin
      omega

end picture

theorem fits_statPicture {label stat : String} {x centerY width : Int}
    {drawn : Int × List ScreenOp} (h : statPicture toolkit label stat x centerY = .ok drawn) :
    ∀ op ∈ drawn.2, op.Fits width := by
  unfold statPicture at h
  obtain ⟨labelSurf, -, h⟩ := exists_of_bind_ok h
  obtain ⟨statSurf, -, h⟩ := exists_of_bind_ok h
  rw [← Except.ok.inj h]
  intro op hop
  simp only [List.mem_cons, List.not_mem_nil, or_false] at hop
  rcases hop with rfl | rfl <;> exact fun value hvalue => by cases hvalue

namespace App

/-- No agent has begun to ask after this. -/
def AskedBy (latest : ℚ) (app : App) : Prop :=
  ∀ key since, app.askingSince.get? key = some since → since ≤ latest

theorem boostOf_mem {app : App} {now : ℚ} (h : app.AskedBy now) (sid : DictKey) (agent : Json) :
    0 ≤ app.boostOf now sid agent ∧ app.boostOf now sid agent ≤ 1 := by
  unfold boostOf
  split
  · cases hget : app.askingSince.get? sid with
    | none => exact ⟨le_refl 0, zero_le_one⟩
    | some since =>
        have hsince := h sid since hget
        refine ⟨le_max_left _ _, max_le zero_le_one ?_⟩
        unfold askingFlashSeconds
        linarith
  · exact ⟨le_refl 0, zero_le_one⟩

/-- **Nothing on a frame is drawn over the edge of a desk**, in a window that is wide enough
for one. -/
theorem fits_scene (hfill : Raster.Fills toolkit.fill) (hsin : ∀ x, |toolkit.sin x| ≤ 1)
    {app : App} {windowSize : Int × Int}
    {now animTick : ℚ} {usage : UsageSnapshot} {ops : List ScreenOp}
    (hwidth : 180 ≤ windowSize.1) (hasked : app.AskedBy now)
    (h : app.scene toolkit windowSize now animTick usage = .ok ops) :
    ∀ op ∈ ops, op.Fits (min windowSize.1 deskMaxWidth - deskMargin) := by
  obtain ⟨background, agents, ghosts, banner, bar, hbackground, hagents, hghosts, hbanner, hbar,
    rfl⟩ := parts_of_scene h
  have hdesk : ∀ {sid agent alpha boost part}, 0 ≤ boost → boost ≤ 1 →
      deskPicture toolkit app.layout (Window.officeSize windowSize) sid agent animTick alpha boost =
        .ok part →
      ∀ op ∈ part, op.Fits (min windowSize.1 deskMaxWidth - deskMargin) :=
    fun hzero hone hpart => @fits_deskPicture toolkit _ _ _ _ _ hfill hsin app.layout
      (Window.officeSize windowSize) _ hwidth hzero hone hpart
  intro op hop
  rcases List.mem_cons.mp hop with rfl | hop
  · trivial
  rcases List.mem_append.mp hop with hop | hop
  · obtain ⟨surface, -, rfl⟩ := exists_of_map_ok hbackground
    rw [List.mem_singleton.mp hop]
    trivial
  rcases List.mem_append.mp hop with hop | hop
  · refine forall_of_pictures (fun item hitem part hpart => ?_) hagents op hop
    obtain ⟨hzero, hone⟩ := boostOf_mem hasked item.1 item.2
    exact hdesk hzero hone hpart
  rcases List.mem_append.mp hop with hop | hop
  · refine forall_of_pictures (fun item hitem part hpart => ?_) hghosts op hop
    exact hdesk (le_refl 0) zero_le_one hpart
  rcases List.mem_append.mp hop with hop | hop
  · rcases hbanner with ⟨-, rfl⟩ | ⟨-, hbanner⟩
    · cases hop
    · unfold bannerPicture at hbanner
      obtain ⟨surface, -, hbanner⟩ := exists_of_bind_ok hbanner
      obtain ⟨text, -, hbanner⟩ := exists_of_bind_ok hbanner
      rw [← Except.ok.inj hbanner] at hop
      simp only [List.mem_cons, List.not_mem_nil, or_false] at hop
      rcases hop with rfl | rfl
      · trivial
      · exact fun value hvalue => by cases hvalue
  · unfold usagePicture at hbar
    obtain ⟨session, hsession, hbar⟩ := exists_of_bind_ok hbar
    obtain ⟨week, hweek, hbar⟩ := exists_of_bind_ok hbar
    rw [← Except.ok.inj hbar] at hop
    rcases List.mem_cons.mp hop with rfl | hop
    · trivial
    rcases List.mem_cons.mp hop with rfl | hop
    · trivial
    rcases List.mem_append.mp hop with hop | hop
    · exact fits_statPicture hsession op hop
    · exact fits_statPicture hweek op hop

/-! ## The clock of the messages -/

theorem preserved_askedBy {moment : Moment} {latest : ℚ} (h : moment.now ≤ latest) :
    Preserved moment fun app => AllObjects app ∧ AskedBy latest app where
  objects _ happ := happ.1
  connection _ _ happ := happ
  upsert app key agent previous state happ hagent := by
    refine ⟨(preserved_allObjects moment).upsert app key agent _ _ happ.1 hagent, ?_⟩
    intro other since hget
    change OrderedDict.get? (if _ then _ else _) other = some since at hget
    split at hget
    · rw [OrderedDict.get?_store] at hget
      split at hget
      · cases hget
        exact h
      · exact happ.2 other since hget
    · exact happ.2 other since hget
  despawn app key happ := by
    refine ⟨(preserved_allObjects moment).despawn app key happ.1, ?_⟩
    intro other since hget
    cases hagent : app.agents.get? key with
    | none =>
        unfold despawned at hget
        rw [hagent] at hget
        exact happ.2 other since hget
    | some agent =>
        rw [despawned_of_get? hagent (happ.1 key agent hagent)] at hget
        change (app.askingSince.discard key).get? other = some since at hget
        rw [OrderedDict.get?_discard] at hget
        split at hget
        · cases hget
        · exact happ.2 other since hget

theorem askedBy_foldl {latest : ℚ} {updates : List Update} {app : App} (happ : AllObjects app)
    (hasked : app.AskedBy latest)
    (hupdates : ∀ moment message, .message moment message ∈ updates →
      CarriesObjects message ∧ moment.now ≤ latest) :
    AllObjects (updates.foldl perform app) ∧ (updates.foldl perform app).AskedBy latest := by
  induction updates generalizing app with
  | nil => exact ⟨happ, hasked⟩
  | cons update rest ih =>
      have hstep : AllObjects (app.perform update) ∧ (app.perform update).AskedBy latest := by
        cases update with
        | message moment message =>
            obtain ⟨hcarries, hnow⟩ := hupdates moment message List.mem_cons_self
            exact (preserved_askedBy hnow).handleMessage ⟨happ, hasked⟩ hcarries
        | ghosts order now =>
            have hsame : (app.updateGhosts order now).askingSince = app.askingSince := by
              unfold updateGhosts
              dsimp only
              split <;> rfl
            refine ⟨?_, ?_⟩
            · rw [AllObjects, perform, agents_updateGhosts]
              exact happ
            · rw [AskedBy, perform, hsame]
              exact hasked
      exact ih hstep.1 hstep.2 fun moment message hmem =>
        hupdates moment message (List.mem_cons_of_mem _ hmem)

/-- Messages are handled at the moments of the turn. -/
theorem moment_of_drain {moments : ℕ → Moment} {app : App} {queue : List Json} {moment : Moment}
    {message : Json} (h : .message moment message ∈ (drain moments app queue).updates) :
    ∃ index, moment = moments index := by
  induction queue generalizing moments app with
  | nil => cases h
  | cons head rest ih =>
      unfold drain at h
      dsimp only at h
      split at h
      · cases List.mem_singleton.mp h
        exact ⟨0, rfl⟩
      · rcases List.mem_cons.mp h with hhead | hrest
        · cases hhead
          exact ⟨0, rfl⟩
        · obtain ⟨index, hindex⟩ := ih hrest
          exact ⟨index + 1, hindex⟩

end App

theorem Feed.moment_of_updatesOf {feed : Feed} {turns : List Turn} {moment : Moment}
    {message : Json} (h : .message moment message ∈ feed.updatesOf turns) :
    ∃ turn ∈ turns, ∃ index, moment = turn.moments index := by
  induction turns generalizing feed with
  | nil => cases h
  | cons turn rest ih =>
      rcases List.mem_append.mp h with hturn | hrest
      · rcases List.mem_append.mp hturn with hdrained | hghosts
        · obtain ⟨index, hindex⟩ := App.moment_of_drain hdrained
          exact ⟨turn, List.mem_cons_self, index, hindex⟩
        · split at hghosts
          · cases List.mem_singleton.mp hghosts
          · cases hghosts
      · obtain ⟨other, hother, index, hindex⟩ := ih hrest
        exact ⟨other, List.mem_cons_of_mem _ hother, index, hindex⟩

namespace Window

/-- **On no frame of a run is a desk drawn over its edge**, and every alpha is one: for every
window that is wide enough for a desk, every state and every moment of the animations, by a
clock that never goes back. -/
theorem fits_of_turns (hfill : Raster.Fills toolkit.fill) (hsin : ∀ x, |toolkit.sin x| ≤ 1)
    (windowSize : Int × Int) (turns : List Turn) (turn : Turn)
    (harrivals : ∀ other ∈ turns ++ [turn], ∀ message ∈ other.arrivals, App.WellFormed message)
    (hclock : ∀ other ∈ turns ++ [turn], ∀ index, (other.moments index).now ≤ turn.drawnAt) :
    let window : Window toolkit := afterTurns windowSize (turns ++ [turn])
    ∀ ops, frameOf (Feed.afterTurns turns) turn window = some ops → 180 ≤ window.windowSize.1 →
      ∀ op ∈ ops, op.Fits (min window.windowSize.1 deskMaxWidth - deskMargin) := by
  intro window ops hframe hwidth
  have hrefines := @refines_afterTurns toolkit windowSize (turns ++ [turn])
  have hmessages := (@settled_of_wellFormed toolkit windowSize _ harrivals).2.1
  have hinitial : App.AllObjects App.initial := fun key value hget => by cases hget
  have hnobody : App.initial.AskedBy turn.drawnAt := fun key since hget => by cases hget
  have hfeed : (Feed.afterTurns (turns ++ [turn])).app.AskedBy turn.drawnAt := by
    refine (App.askedBy_foldl hinitial hnobody fun moment message hmem => ?_).2
    constructor
    · have harrived := App.mem_messages hmem
      rw [hmessages] at harrived
      obtain ⟨other, hother, hmessage⟩ := List.mem_flatMap.mp harrived
      exact (harrivals other hother message hmessage).carries
    · rw [Feed.afterTurns, Feed.updates_foldl, List.nil_append] at hmem
      obtain ⟨other, hother, index, rfl⟩ := Feed.moment_of_updatesOf hmem
      exact hclock other hother index
  have hasked : window.app.AskedBy turn.drawnAt := by
    intro key since hget
    rcases hrefines.app.askingSince key with hsame | ⟨hnone, -⟩
    · exact hfeed key since (hsame.symm.trans hget)
    · rw [show window.app.askingSince.get? key = none from hnone] at hget
      cases hget
  exact App.fits_scene hfill hsin hwidth hasked (scene_of_frameOf hframe)

theorem fits_of_turns_opening :
    ∃ ops, frameOf (Feed.afterTurns []) (turnAt 0 [openingSnapshot])
        (afterTurns (640, 480) ([] ++ [turnAt 0 [openingSnapshot]]) : Window plainToolkit) =
          some ops ∧
      ∀ op ∈ ops, op.Fits (min (afterTurns (640, 480) ([] ++ [turnAt 0 [openingSnapshot]]) :
        Window plainToolkit).windowSize.1 deskMaxWidth - deskMargin) := by
  obtain ⟨ops, hops⟩ := Option.isSome_iff_exists.mp isSome_opening
  have hsin : ∀ x, |plainToolkit.sin x| ≤ 1 := fun x => by
    show |(0 : ℚ)| ≤ 1
    norm_num
  exact ⟨ops, hops, fits_of_turns fills_plainToolkit hsin (640, 480) [] (turnAt 0 [openingSnapshot])
    (fun other hother => wellFormed_turnAt hother)
    (fun other hother index => by
      rw [List.mem_singleton.mp hother]
      exact le_refl (0 : ℚ))
    ops hops (by decide +kernel)⟩

end Window

end Frontend
end SiliconOffice
