import SiliconOffice.Frontend.Layout
import SiliconOffice.Library.Raster
import SiliconOffice.Library.Rounding

/-!
# The avatars

A frame is a grid of character codes, drawn with one square of `PIXEL_SCALE` pixels for each
code.  Which frame an avatar shows depends on its state and on the time since the start of
the frontend: each state goes through a short sequence of frames, one per interval, again and
again.  The number of the interval is a quotient of doubles, and the quotient is rounded.

`surf.fill` of pygame is a parameter.
-/

namespace SiliconOffice
namespace Frontend

open Library Python

/-- Red, green and blue. -/
abbrev Color := ℕ × ℕ × ℕ

/-- `PIXEL_SCALE`. -/
def pixelScale : ℕ := 7

namespace Sprites

/-- `WIDTH` and `HEIGHT`. -/
def width : ℕ := 10

def height : ℕ := 12

/-- `HAND_ROW_INDEX`. -/
def handRowIndex : ℕ := 10

/-- `_BASE_PALETTE`; `.` and unknown codes are transparent. -/
def basePalette : Char → Option Color
  | 'H' => some (140, 100, 65)
  | 'S' => some (235, 200, 165)
  | 'E' => some (35, 35, 40)
  | 'X' => some (210, 60, 60)
  | 'M' => some (150, 90, 80)
  | 'A' => some (235, 200, 165)
  | 'B' => some (218, 119, 86)
  | _ => none

/-- The names of `_ALL_FRAMES`. -/
inductive Frame
  | base
  | sideEye
  | work2
  | ask
  | error
  deriving DecidableEq

/-- `_ALL_FRAMES`. -/
def allFrames : Frame → List String
  | .base =>
      [".HHHHHH...", "HHHHHHHH..", "HSSSSSSSH.", "HSSESSESH.", "HSSSSSSSH.", "HSSMMMSSH.",
       ".HSSSSSH..", "..BBBBBB..", ".BBBBBBBB.", ".BBBBBBBB.", "AA.BBBB.AA", "..BB..BB.."]
  | .sideEye =>
      [".HHHHHH...", "HHHHHHHH..", "HSSSSSSSH.", "HSESSESSH.", "HSSSSSSSH.", "HSSMMMSSH.",
       ".HSSSSSH..", "..BBBBBB..", ".BBBBBBBB.", ".BBBBBBBB.", "AA.BBBB.AA", "..BB..BB.."]
  | .work2 =>
      [".HHHHHH...", "HHHHHHHH..", "HSSSSSSSH.", "HSSESSESH.", "HSSSSSSSH.", "HSSMMMSSH.",
       ".HSSSSSH..", "..BBBBBB..", ".BBBBBBBB.", ".BBBBBBBB.", ".AABBBBAA.", "..BB..BB.."]
  | .ask =>
      [".HHHHHH...", "HHHHHHHH..", "HSSSSSSSH.", "HSSESSESH.", "HSSSSSSSH.", "HSSMMMSSHA",
       ".HSSSSSH.A", "..BBBBBB..", ".BBBBBBBB.", ".BBBBBBBB.", "AA.BBBB...", "..BB..BB.."]
  | .error =>
      [".HHHHHH...", "HHHHHHHH..", "HSSSSSSSH.", "HSSXSSXSH.", "HSSSSSSSH.", "HSSMMMSSH.",
       ".HSSSSSH..", "..BBBBBB..", ".BBBBBBBB.", ".BBBBBBBB.", "AA.BBBB.AA", "..BB..BB.."]

/-- The two assertions of the module: every frame has its rows and every row its width. -/
theorem size_allFrames (frame : Frame) :
    (allFrames frame).length = height ∧
      ∀ row ∈ allFrames frame, row.toList.length = width := by
  cases frame <;> decide +kernel

/-- A dictionary whose keys are states, with a default; looking it up hashes the state. -/
def forState {α : Type} (byState : List (String × α)) (default : α) (state : Json) :
    Except PyErr α := do
  let key ← state.hash
  match key with
  | .str text => .ok ((byState.lookup text).getD default)
  | _ => .ok default

/-- `_STATE_FRAME_SEQUENCE`. -/
def stateFrameSequence : List (String × List Frame) :=
  [("idle", [.base, .base, .base, .sideEye]),
   ("working", [.base, .work2]),
   ("asking", [.ask]),
   ("error", [.error])]

/-- The double nearest to a number that is neither too large nor too small for one. -/
def double (value : ℚ) : ℚ :=
  toPrecision 53 value

/-- `_STATE_FRAME_INTERVAL`, in seconds. -/
def stateFrameInterval : List (String × ℚ) :=
  [("idle", double (9 / 10)), ("working", double (1 / 4)), ("asking", double (6 / 10)),
   ("error", double (6 / 10))]

/-- `frame_name_for`. -/
def frameNameFor (state : Json) (animTick : ℚ) : Except PyErr Frame := do
  let sequence ← forState stateFrameSequence [.base, .base, .base, .sideEye] state
  let interval ← forState stateFrameInterval (double (9 / 10)) state
  let index := intOf (double (animTick / interval)) % sequence.length
  .ok (sequence.getD index.toNat .base)

/-- The code at a place of a frame, as a colour. -/
def colorAt (frame : Frame) (x y : ℕ) : Option Color :=
  ((allFrames frame)[y]?.bind fun row => row.toList[x]?).bind basePalette

/-- The places that `_render_frame` goes through. -/
def places (frame : Frame) : List (ℕ × ℕ) :=
  (allFrames frame).zipIdx.flatMap fun item =>
    (List.range item.1.toList.length).map fun x => (x, item.2)

section

-- `surf.fill(color, (left, top, width, height))`
variable (fill : Raster Color → Color → ℕ → ℕ → ℕ → ℕ → Raster Color)

/-- `_render_frame`. -/
def renderFrame (frame : Frame) : Raster Color :=
  (places frame).foldl
    (fun surf place =>
      match colorAt frame place.1 place.2 with
      | some color =>
          fill surf color (place.1 * pixelScale) (place.2 * pixelScale) pixelScale pixelScale
      | none => surf)
    (.blank (width * pixelScale) (height * pixelScale) none)

/-- `get_sprite_surface`. -/
def getSpriteSurface (state : Json) (animTick : ℚ) : Except PyErr (Raster Color) := do
  let frame ← frameNameFor state animTick
  .ok (renderFrame fill frame)

end

/-! ## What is drawn -/

theorem mem_places {frame : Frame} {x y : ℕ} :
    (x, y) ∈ places frame ↔ ∃ row, (allFrames frame)[y]? = some row ∧ x < row.toList.length := by
  unfold places
  rw [List.mem_flatMap]
  constructor
  · rintro ⟨⟨row, index⟩, hrow, hplace⟩
    obtain ⟨column, hcolumn, hsame⟩ := List.mem_map.mp hplace
    cases hsame
    exact ⟨row, List.mem_zipIdx_iff_getElem?.mp hrow, List.mem_range.mp hcolumn⟩
  · rintro ⟨row, hrow, hx⟩
    refine ⟨(row, y), List.mem_zipIdx_iff_getElem?.mpr hrow, ?_⟩
    exact List.mem_map.mpr ⟨x, List.mem_range.mpr hx, rfl⟩

/-- It goes through all of them, since no row of a frame is missing or too short. -/
theorem mem_places_of_lt {frame : Frame} {x y : ℕ} (hx : x < width) (hy : y < height) :
    (x, y) ∈ places frame := by
  obtain ⟨hrows, hwidths⟩ := size_allFrames frame
  have hrow : y < (allFrames frame).length := hrows.symm ▸ hy
  refine mem_places.mpr ⟨_, List.getElem?_eq_getElem hrow, ?_⟩
  rw [hwidths _ (List.getElem_mem hrow)]
  exact hx

variable {fill : Raster Color → Color → ℕ → ℕ → ℕ → ℕ → Raster Color}

/-- When `fill` fills rectangles, a sprite is made of the cells of its frame. -/
theorem agrees_renderFrame (hfill : Raster.Fills fill) (frame : Frame) :
    (renderFrame fill frame).Agrees (.fillCells pixelScale (colorAt frame) (places frame)
      (.blank (width * pixelScale) (height * pixelScale) none)) := by
  unfold renderFrame Raster.fillCells
  refine Raster.agrees_foldl (fun place surface other hsame => ?_) _ (.refl _)
  unfold Raster.fillCell
  cases colorAt frame place.1 place.2 with
  | none => exact hsame
  | some color => exact hfill.agrees hsame _ _ _ _ _

/-- **A sprite is its frame, enlarged**: each pixel has the colour of its code. -/
theorem pixel_renderFrame (hfill : Raster.Fills fill) (frame : Frame) {x y : ℕ} (hx : x < 70)
    (hy : y < 84) :
    (renderFrame fill frame).pixel x y = colorAt frame (x / pixelScale) (y / pixelScale) := by
  have hsame := agrees_renderFrame hfill frame
  have hsize := @Raster.size_fillCells _ pixelScale (colorAt frame) (places frame)
    (.blank (width * pixelScale) (height * pixelScale) none)
  have hplace : (x / pixelScale, y / pixelScale) ∈ places frame := by
    apply mem_places_of_lt
    · unfold pixelScale width
      omega
    · unfold pixelScale height
      omega
  rw [hsame.pixel x y (hsize.1.symm ▸ hx) (hsize.2.symm ▸ hy), Raster.pixel_fillCells (by decide),
    if_pos hplace]
  exact Option.or_none

theorem size_renderFrame (hfill : Raster.Fills fill) (frame : Frame) :
    (renderFrame fill frame).width = 70 ∧ (renderFrame fill frame).height = 84 := by
  have hsame := agrees_renderFrame hfill frame
  have hsize := @Raster.size_fillCells _ pixelScale (colorAt frame) (places frame)
    (.blank (width * pixelScale) (height * pixelScale) none)
  exact ⟨hsame.width.trans hsize.1, hsame.height.trans hsize.2⟩

end Sprites

end Frontend
end SiliconOffice
