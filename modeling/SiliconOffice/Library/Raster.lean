import Mathlib.Data.List.Basic

/-!
# Surfaces of pixels

A surface is filled rectangle by rectangle, later ones over earlier ones.  When the
rectangles are the cells of a square grid, `pixel_fillCells` says what colour each pixel ends
up with: that of its cell, if the cell was filled at all.

An operation of some other code `Fills` when on the pixels of the surface it does what `fill`
does; a surface that it has filled `Agrees` with one that `fill` has (`agrees_foldl`).
-/

namespace SiliconOffice
namespace Library

/-- A surface; `none` is a transparent pixel.  Pixels outside of the size are not part of
it. -/
structure Raster (γ : Type*) where
  width : ℕ
  height : ℕ
  pixel : ℕ → ℕ → Option γ

namespace Raster

variable {γ : Type*}

/-- A surface of one colour. -/
def blank (width height : ℕ) (color : Option γ) : Raster γ where
  width := width
  height := height
  pixel _ _ := color

/-- Fill a rectangle. -/
def fill (color : γ) (left top width height : ℕ) (raster : Raster γ) : Raster γ :=
  { raster with
    pixel := fun x y =>
      if left ≤ x ∧ x < left + width ∧ top ≤ y ∧ y < top + height then some color
      else raster.pixel x y }

/-- Two surfaces of one size with the same pixels. -/
structure Agrees (raster other : Raster γ) : Prop where
  width : raster.width = other.width
  height : raster.height = other.height
  pixel : ∀ x y, x < other.width → y < other.height → raster.pixel x y = other.pixel x y

/-- An operation fills a rectangle, as far as it lies on the surface. -/
def Fills (operation : Raster γ → γ → ℕ → ℕ → ℕ → ℕ → Raster γ) : Prop :=
  ∀ raster color left top width height,
    (operation raster color left top width height).Agrees (raster.fill color left top width height)

/-- A rectangle of a surface, as a surface of its own. -/
def subsurface (left top width height : ℕ) (raster : Raster γ) : Raster γ where
  width := width
  height := height
  pixel x y := raster.pixel (left + x) (top + y)

/-- Fill one cell of the grid, if it has a colour. -/
def fillCell (cell : ℕ) (colorOf : ℕ → ℕ → Option γ) (raster : Raster γ) (position : ℕ × ℕ) :
    Raster γ :=
  match colorOf position.1 position.2 with
  | some color => raster.fill color (position.1 * cell) (position.2 * cell) cell cell
  | none => raster

/-- Fill cells of the grid, one after the other. -/
def fillCells (cell : ℕ) (colorOf : ℕ → ℕ → Option γ) (cells : List (ℕ × ℕ))
    (raster : Raster γ) : Raster γ :=
  cells.foldl (fillCell cell colorOf) raster

theorem Agrees.refl (raster : Raster γ) : raster.Agrees raster :=
  ⟨rfl, rfl, fun _ _ _ _ => rfl⟩

theorem Fills.agrees {operation : Raster γ → γ → ℕ → ℕ → ℕ → ℕ → Raster γ} (h : Fills operation)
    {raster other : Raster γ} (hsame : raster.Agrees other) (color : γ)
    (left top width height : ℕ) :
    (operation raster color left top width height).Agrees
      (other.fill color left top width height) := by
  obtain ⟨hwidth, hheight, hpixel⟩ := h raster color left top width height
  refine ⟨hwidth.trans hsame.width, hheight.trans hsame.height, fun x y hx hy => ?_⟩
  rw [hpixel x y (hsame.width ▸ hx) (hsame.height ▸ hy)]
  unfold fill
  dsimp only
  rw [hsame.pixel x y hx hy]

/-- Surfaces that agree still do when one piece after the other is drawn on both. -/
theorem agrees_foldl {ι : Type*} {draw draw' : Raster γ → ι → Raster γ}
    (hdraw : ∀ piece raster other, raster.Agrees other →
      (draw raster piece).Agrees (draw' other piece))
    (pieces : List ι) {raster other : Raster γ} (h : raster.Agrees other) :
    (pieces.foldl draw raster).Agrees (pieces.foldl draw' other) := by
  induction pieces generalizing raster other with
  | nil => exact h
  | cons piece rest ih => exact ih (hdraw piece raster other h)

variable {cell : ℕ} {colorOf : ℕ → ℕ → Option γ}

/-- A pixel lies in one cell. -/
theorem mem_cell_iff (hcell : 0 < cell) (column x : ℕ) :
    column * cell ≤ x ∧ x < column * cell + cell ↔ x / cell = column := by
  rw [Nat.div_eq_iff hcell]
  constructor <;> intro h <;> constructor <;> omega

theorem pixel_fillCell (hcell : 0 < cell) (raster : Raster γ) (position : ℕ × ℕ) (x y : ℕ) :
    (fillCell cell colorOf raster position).pixel x y =
      if (x / cell, y / cell) = position then (colorOf position.1 position.2).or (raster.pixel x y)
      else raster.pixel x y := by
  obtain ⟨column, row⟩ := position
  have hinside : (column * cell ≤ x ∧ x < column * cell + cell ∧ row * cell ≤ y ∧
      y < row * cell + cell) ↔ (x / cell, y / cell) = (column, row) := by
    rw [Prod.mk.injEq, ← mem_cell_iff hcell column x, ← mem_cell_iff hcell row y, and_assoc]
  unfold fillCell
  dsimp only
  cases colorOf column row with
  | none => simp
  | some color => exact if_congr hinside rfl rfl

@[simp] theorem size_fillCells (cells : List (ℕ × ℕ)) (raster : Raster γ) :
    (fillCells cell colorOf cells raster).width = raster.width ∧
      (fillCells cell colorOf cells raster).height = raster.height := by
  unfold fillCells
  induction cells generalizing raster with
  | nil => exact ⟨rfl, rfl⟩
  | cons head rest ih =>
      rw [List.foldl_cons]
      obtain ⟨hwidth, hheight⟩ := ih (fillCell cell colorOf raster head)
      rw [hwidth, hheight]
      unfold fillCell
      split <;> exact ⟨rfl, rfl⟩

/-- **Each pixel has the colour of its cell**, when the cell was filled. -/
theorem pixel_fillCells (hcell : 0 < cell) (cells : List (ℕ × ℕ)) (raster : Raster γ) (x y : ℕ) :
    (fillCells cell colorOf cells raster).pixel x y =
      if (x / cell, y / cell) ∈ cells then
        (colorOf (x / cell) (y / cell)).or (raster.pixel x y)
      else raster.pixel x y := by
  unfold fillCells
  -- on the cells: a cell that comes again is filled with the same colour
  induction cells generalizing raster with
  | nil => simp
  | cons head rest ih =>
      rw [List.foldl_cons, ih, pixel_fillCell hcell]
      by_cases hhead : (x / cell, y / cell) = head
      · subst hhead
        by_cases hrest : (x / cell, y / cell) ∈ rest
        · simp [hrest]
          cases colorOf (x / cell) (y / cell) <;> simp
        · simp [hrest]
      · simp [hhead]

end Raster

end Library
end SiliconOffice
