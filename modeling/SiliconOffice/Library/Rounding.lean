import Mathlib.Algebra.Order.Floor.Ring
import Mathlib.Data.Int.Log
import Mathlib.Data.Rat.Floor
import Mathlib.Tactic.FieldSimp
import Mathlib.Tactic.Linarith
import Mathlib.Tactic.NormNum
import Mathlib.Tactic.Positivity
import Mathlib.Tactic.Ring

/-!
# Rounding to a binary precision

A number of so many binary digits is an integer times a power of two, and a result that is no
such number is rounded to the nearest one, of two as near to the one whose integer is even.
Exponents are unbounded here: numbers neither overflow nor become subnormal.

* `abs_toPrecision_sub_le` — the error is at most the half of the last digit;
* `toPrecision_le_of_le`, `le_toPrecision_of_le` — rounding crosses no integer;
* `floor_toPrecision` — the integer part can only go up, and only from just below.
-/

namespace SiliconOffice
namespace Library

/-- The nearest integer, and of two as near the even one. -/
def nearestEven (x : ℚ) : ℤ :=
  let below := ⌊x⌋
  let rest := x - below
  if rest < 1 / 2 ∨ rest = 1 / 2 ∧ below % 2 = 0 then below else below + 1

/-- What the last of so many binary digits counts. -/
def lastDigit (precision : ℕ) (x : ℚ) : ℚ :=
  2 ^ (Int.log 2 |x| + 1 - precision)

/-- The nearest number of so many binary digits. -/
def toPrecision (precision : ℕ) (x : ℚ) : ℚ :=
  nearestEven (x / lastDigit precision x) * lastDigit precision x

variable {precision : ℕ} {x : ℚ} {m : ℤ}

/-! ## Integers -/

theorem abs_nearestEven_sub_le (x : ℚ) : |nearestEven x - x| ≤ 1 / 2 := by
  have hfloor := Int.floor_le x
  have hceil := Int.lt_floor_add_one x
  unfold nearestEven
  dsimp only
  rw [abs_le]
  split
  · rename_i hnear
    constructor <;> rcases hnear with hlt | ⟨heq, -⟩ <;> linarith
  · rename_i hfar
    rw [not_or, not_lt] at hfar
    push_cast
    constructor <;> linarith [hfar.1]

theorem le_nearestEven_of_le (h : (m : ℚ) ≤ x) : m ≤ nearestEven x := by
  have hfloor : m ≤ ⌊x⌋ := Int.le_floor.mpr h
  unfold nearestEven
  dsimp only
  split <;> omega

theorem nearestEven_le_of_le (h : x ≤ m) : nearestEven x ≤ m := by
  have hfloor := Int.floor_le x
  unfold nearestEven
  dsimp only
  split
  · exact_mod_cast hfloor.trans h
  · rename_i hfar
    rw [not_or, not_lt] at hfar
    have hbelow : (⌊x⌋ : ℚ) < m := by linarith [hfar.1]
    have hlt : ⌊x⌋ < m := by exact_mod_cast hbelow
    omega

/-! ## Digits -/

theorem lastDigit_pos (precision : ℕ) (x : ℚ) : 0 < lastDigit precision x := by
  unfold lastDigit
  exact zpow_pos two_pos _

theorem toPrecision_zero (precision : ℕ) : toPrecision precision 0 = 0 := by
  have hzero : nearestEven 0 = 0 := by decide +kernel
  unfold toPrecision
  rw [zero_div, hzero, Int.cast_zero, zero_mul]

/-- The last digit of a number is small beside the number. -/
theorem lastDigit_le (hx : x ≠ 0) : lastDigit precision x * 2 ^ precision ≤ 2 * |x| := by
  have hlog : (2 : ℚ) ^ Int.log 2 |x| ≤ |x| := by
    exact_mod_cast Int.zpow_log_le_self (by norm_num) (abs_pos.mpr hx)
  calc lastDigit precision x * 2 ^ precision
      = 2 ^ (Int.log 2 |x| + 1) := by
        unfold lastDigit
        rw [← zpow_natCast, ← zpow_add₀ two_ne_zero, sub_add_cancel]
    _ = 2 ^ Int.log 2 |x| * 2 := zpow_add_one₀ two_ne_zero _
    _ ≤ 2 * |x| := by linarith

/-- **The error is at most half of the last digit.** -/
theorem abs_toPrecision_sub_le (precision : ℕ) (x : ℚ) :
    |toPrecision precision x - x| ≤ |x| / 2 ^ precision := by
  rcases eq_or_ne x 0 with rfl | hx
  · simp [toPrecision_zero]
  · have hdigit := lastDigit_pos precision x
    have hnearest := abs_nearestEven_sub_le (x / lastDigit precision x)
    have hpower : (0 : ℚ) < 2 ^ precision := by positivity
    have herror : toPrecision precision x - x =
        (nearestEven (x / lastDigit precision x) - x / lastDigit precision x) *
          lastDigit precision x := by
      unfold toPrecision
      field_simp
    rw [herror, abs_mul, abs_of_pos hdigit, le_div_iff₀ hpower]
    calc |(nearestEven (x / lastDigit precision x) : ℚ) - x / lastDigit precision x| *
          lastDigit precision x * 2 ^ precision
        ≤ 1 / 2 * lastDigit precision x * 2 ^ precision := by gcongr
      _ = 1 / 2 * (lastDigit precision x * 2 ^ precision) := by ring
      _ ≤ 1 / 2 * (2 * |x|) := mul_le_mul_of_nonneg_left (lastDigit_le hx) (by norm_num)
      _ = |x| := by ring

/-- An integer is a multiple of the last digit of a number that is not too large. -/
theorem exists_mul_lastDigit (hx : x ≠ 0) (hsmall : |x| < 2 ^ precision) (m : ℤ) :
    ∃ k : ℤ, (m : ℚ) = k * lastDigit precision x := by
  have hlog : Int.log 2 |x| < precision := by
    rw [← Int.lt_zpow_iff_log_lt (by norm_num) (abs_pos.mpr hx)]
    exact_mod_cast hsmall
  obtain ⟨shift, hshift⟩ : ∃ shift : ℕ, (shift : ℤ) = precision - (Int.log 2 |x| + 1) :=
    ⟨(precision - (Int.log 2 |x| + 1)).toNat, Int.toNat_of_nonneg (by omega)⟩
  refine ⟨m * 2 ^ shift, ?_⟩
  have hone : (2 : ℚ) ^ shift * lastDigit precision x = 1 := by
    unfold lastDigit
    rw [← zpow_natCast, ← zpow_add₀ two_ne_zero, hshift]
    norm_num
  push_cast
  rw [mul_assoc, hone, mul_one]

/-- **Rounding crosses no integer.** -/
theorem toPrecision_le_of_le (hsmall : |x| < 2 ^ precision) (h : x ≤ m) :
    toPrecision precision x ≤ m := by
  rcases eq_or_ne x 0 with rfl | hx
  · rwa [toPrecision_zero]
  · have hdigit := lastDigit_pos precision x
    obtain ⟨k, hk⟩ := exists_mul_lastDigit hx hsmall m
    rw [hk] at h ⊢
    have hle : nearestEven (x / lastDigit precision x) ≤ k :=
      nearestEven_le_of_le ((div_le_iff₀ hdigit).mpr h)
    unfold toPrecision
    gcongr

theorem le_toPrecision_of_le (hsmall : |x| < 2 ^ precision) (h : (m : ℚ) ≤ x) :
    m ≤ toPrecision precision x := by
  rcases eq_or_ne x 0 with rfl | hx
  · rwa [toPrecision_zero]
  · have hdigit := lastDigit_pos precision x
    obtain ⟨k, hk⟩ := exists_mul_lastDigit hx hsmall m
    rw [hk] at h ⊢
    have hle : k ≤ nearestEven (x / lastDigit precision x) :=
      le_nearestEven_of_le ((le_div_iff₀ hdigit).mpr h)
    unfold toPrecision
    gcongr

/-- **The integer part of a number that is rounded**: its own, or the next one when the number
is as near to that as the precision can tell. -/
theorem floor_toPrecision {n : ℕ} (hlow : n ≤ x) (hhigh : x < n + 1)
    (hsmall : n + 1 ≤ 2 ^ precision) :
    ⌊toPrecision precision x⌋ = n ∨
      ⌊toPrecision precision x⌋ = n + 1 ∧ n + 1 - x ≤ x / 2 ^ precision := by
  have hnonneg : 0 ≤ x := (Nat.cast_nonneg n).trans hlow
  have habs : |x| < 2 ^ precision := by
    rw [abs_of_nonneg hnonneg]
    exact hhigh.trans_le (by exact_mod_cast hsmall)
  have hfrom : ((n : ℤ) : ℚ) ≤ toPrecision precision x :=
    le_toPrecision_of_le habs (by exact_mod_cast hlow)
  have hupto : toPrecision precision x ≤ ((n + 1 : ℤ) : ℚ) :=
    toPrecision_le_of_le habs (by push_cast; exact hhigh.le)
  rcases hupto.lt_or_eq with hlt | heq
  · left
    rw [Int.floor_eq_iff]
    exact ⟨hfrom, by exact_mod_cast hlt⟩
  · right
    refine ⟨by rw [heq, Int.floor_intCast], ?_⟩
    have herror := abs_toPrecision_sub_le precision x
    rw [heq, abs_of_nonneg hnonneg] at herror
    have hup := (abs_le.mp herror).2
    push_cast at hup
    exact hup

end Library
end SiliconOffice
