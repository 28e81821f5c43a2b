import SiliconOffice.Python.Json

/-!
# The desk grid

A session gets a slot when it first shows up and keeps it until it is released; a
released slot goes to the end of the free list, and a new session takes the head of the
free list before the grid grows.

`sync` walks through two Python sets, whose order is not specified: a `SetOrder` is any
order that Python may take, and it may depend on everything the layout holds.

`deskRect` places the desk of a slot in a window: one column, one row a slot, with a gap
between the rows that shrinks before the desks do.
-/

namespace SiliconOffice
namespace Frontend

open Library Python

/-- `Layout`: which slot each session has, the slots released so far, the first slot never
used, the number of rows. -/
@[ext]
structure Layout where
  slotOfSession : OrderedDict DictKey Nat
  freeSlots : List Nat
  nextSlot : Nat
  rows : Nat

/-- The order in which Python walks through a set, whatever it depends on. -/
structure SetOrder where
  iterate : Layout → List DictKey → List DictKey
  perm : ∀ layout ids, (iterate layout ids).Perm ids

/-- Sets that are walked through in the order in which they were built. -/
def SetOrder.asBuilt : SetOrder where
  iterate _ ids := ids
  perm _ _ := .refl _

namespace Layout

/-- `Layout.__init__`. -/
def initial : Layout where
  slotOfSession := .empty
  freeSlots := []
  nextSlot := 0
  rows := 1

/-- `_assign_slot`. -/
def assignSlot (layout : Layout) (sessionId : DictKey) : Layout :=
  if layout.slotOfSession.has sessionId then layout
  else
    match layout.freeSlots with
    | slot :: rest =>
        { layout with
          slotOfSession := layout.slotOfSession.store sessionId slot
          freeSlots := rest }
    | [] =>
        { layout with
          slotOfSession := layout.slotOfSession.store sessionId layout.nextSlot
          nextSlot := layout.nextSlot + 1 }

/-- `_release_slot`. -/
def releaseSlot (layout : Layout) (sessionId : DictKey) : Layout :=
  match layout.slotOfSession.get? sessionId with
  | some slot =>
      { layout with
        slotOfSession := layout.slotOfSession.discard sessionId
        freeSlots := layout.freeSlots ++ [slot] }
  | none => layout

/-- `_recompute_grid`. -/
def recomputeGrid (layout : Layout) : Layout :=
  { layout with rows := max 1 layout.nextSlot }

/-- `sync`.  What has to be released and what has to be assigned are both computed from
the slots held at the start. -/
def sync (order : SetOrder) (sessionIds : List DictKey) (layout : Layout) : Layout :=
  let current := layout.slotOfSession.keys
  let departed := current.filter fun sid => !sessionIds.contains sid
  let arrived := sessionIds.filter fun sid => !current.contains sid
  let released := (order.iterate layout departed).foldl releaseSlot layout
  let assigned := (order.iterate released arrived).foldl assignSlot released
  assigned.recomputeGrid

end Layout

/-! ## Rectangles -/

/-- `pygame.Rect`. -/
structure Rect where
  left : Int
  top : Int
  width : Int
  height : Int
  deriving DecidableEq

def Rect.right (rect : Rect) : Int := rect.left + rect.width

def Rect.bottom (rect : Rect) : Int := rect.top + rect.height

def deskMaxWidth : Int := 320

def deskHeight : Int := 200

def deskMargin : Int := 28

def deskMinGap : Int := 4

/-- `int(value)`, which truncates towards zero. -/
def intOf (value : ℚ) : Int :=
  value.num.tdiv value.den

namespace Layout

/-- `pitch`: from one row to the next. -/
def pitch (layout : Layout) (h : Int) : ℚ :=
  let idealPitch : ℚ := deskHeight + deskMargin
  let availablePitch : ℚ := h / layout.rows
  max (deskHeight + deskMinGap) (min idealPitch availablePitch)

/-- `x`, before truncation. -/
def deskX (w : Int) : ℚ :=
  let cellW := min w deskMaxWidth
  (w - cellW) / 2 + deskMargin / 2

/-- `y`, before truncation. -/
def deskY (layout : Layout) (h : Int) (slot : Nat) : ℚ :=
  let pitch := layout.pitch h
  let gap := pitch - deskHeight
  let totalH := pitch * layout.rows
  let yOffset := max 0 ((h - totalH) / 2)
  yOffset + slot * pitch + gap / 2

/-- `desk_rect`. -/
def deskRect (layout : Layout) (sessionId : DictKey) (windowSize : Int × Int) : Option Rect :=
  (layout.slotOfSession.get? sessionId).map fun slot =>
    let (w, h) := windowSize
    let cellW := min w deskMaxWidth
    -- the width and the height are integers already
    ⟨intOf (deskX w), intOf (layout.deskY h slot), cellW - deskMargin, deskHeight⟩

end Layout

end Frontend
end SiliconOffice
