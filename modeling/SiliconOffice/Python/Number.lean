import Mathlib.Data.List.Perm.Basic
import Mathlib.Algebra.BigOperators.Group.List.Basic
import SiliconOffice.Python.Json

/-!
# Numbers that Python adds up

The numbers of a JSON text, with infinities and NaN, under exact addition and scaling: what
`int` and `float` arithmetic comes to when no rounding takes place.  Sums do not depend on
the order of their terms.
-/

namespace SiliconOffice
namespace Python

/-- A number that is not rounded. -/
inductive Number
  | finite (value : ℚ)
  | infinity (negative : Bool)
  | nan
  deriving DecidableEq

namespace Number

def add : Number → Number → Number
  | finite a, finite b => finite (a + b)
  | finite _, infinity negative => infinity negative
  | infinity negative, finite _ => infinity negative
  | infinity a, infinity b => if a = b then infinity a else nan
  | nan, _ => nan
  | _, nan => nan

/-- `number * rate` and `number / divisor` for a positive factor. -/
def scale (factor : ℚ) : Number → Number
  | finite value => finite (value * factor)
  | infinity negative => infinity negative
  | nan => nan

instance : Zero Number := ⟨finite 0⟩

instance : Add Number := ⟨add⟩

theorem add_eq (a b : Number) : a + b = add a b := rfl

theorem zero_eq : (0 : Number) = finite 0 := rfl

instance : AddCommMonoid Number where
  add_assoc a b c := by
    simp only [add_eq]
    cases a <;> cases b <;> cases c <;> grind [add]
  zero_add a := by
    rw [add_eq, zero_eq]
    cases a <;> simp [add]
  add_zero a := by
    rw [add_eq, zero_eq]
    cases a <;> simp [add]
  add_comm a b := by
    simp only [add_eq]
    cases a <;> cases b <;> grind [add]
  nsmul := nsmulRec

end Number

/-- The number that Python computes with when it is given the value. -/
def Json.toNumber : Json → Except PyErr Number
  | .int value => .ok (.finite value)
  | .bool value => .ok (.finite (if value then 1 else 0))
  | .float (.finite value) => .ok (.finite value)
  | .float (.infinity negative) => .ok (.infinity negative)
  | .float (.nan _) => .ok .nan
  | _ => .error .typeError

end Python
end SiliconOffice
