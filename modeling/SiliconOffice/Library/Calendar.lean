import Mathlib.Algebra.Order.Group.Basic
import Mathlib.Order.Bounds.Basic
import Mathlib.Data.Int.Notation

/-!
# The proleptic Gregorian calendar

Years of any sign, every fourth one a leap year but for three centuries in four.  The
ordinal of a date counts days, 1 January of year 1 being day 1.

* `daysBeforeYear_succ`, `daysBeforeMonth_succ` — how the days add up;
* `Date.ordinal_lt_ordinal_iff` — ordinals are ordered as years, months and days are;
* `Date.ordinal_ofOrdinal`, `Date.ordinal_inj` — every number of a day is one date's;
* `Recurring.isGreatest` — the last one so far of instants that recur.
-/

namespace SiliconOffice
namespace Library

/-! ## Years -/

def isLeap (year : ℤ) : Bool :=
  decide (year % 4 = 0 ∧ (year % 100 ≠ 0 ∨ year % 400 = 0))

/-- The days before 1 January of the year. -/
def daysBeforeYear (year : ℤ) : ℤ :=
  (year - 1) * 365 + (year - 1) / 4 - (year - 1) / 100 + (year - 1) / 400

def daysInYear (leap : Bool) : ℕ := if leap then 366 else 365

theorem daysBeforeYear_succ (year : ℤ) :
    daysBeforeYear (year + 1) = daysBeforeYear year + daysInYear (isLeap year) := by
  unfold daysBeforeYear daysInYear
  by_cases hleap : isLeap year = true
  · rw [if_pos hleap]
    have hyear := of_decide_eq_true hleap
    omega
  · rw [if_neg hleap]
    have hyear := of_decide_eq_false (eq_false_of_ne_true hleap)
    omega

theorem daysBeforeYear_lt {year later : ℤ} (h : year < later) :
    daysBeforeYear (year + 1) ≤ daysBeforeYear later := by
  unfold daysBeforeYear
  omega

theorem daysBeforeYear_le {year later : ℤ} (h : year ≤ later) :
    daysBeforeYear year ≤ daysBeforeYear later := by
  unfold daysBeforeYear
  omega

/-- Where a day stands in the cycles of 400, 100 and 4 years and of 1 year.  The last day of a
cycle belongs to its last year. -/
structure Cycles where
  quadricentennia : ℤ
  centuries : ℤ
  olympiads : ℤ
  years : ℤ
  days : ℤ
  centuries_le : 0 ≤ centuries ∧ centuries ≤ 3
  olympiads_le : 0 ≤ olympiads ∧ olympiads ≤ 24
  years_le : 0 ≤ years ∧ years ≤ 3
  days_le : 0 ≤ days ∧ days ≤ 365
  intercalary : days = 365 → years = 3 ∧ (olympiads = 24 → centuries = 3)

namespace Cycles

def year (cycles : Cycles) : ℤ :=
  cycles.quadricentennia * 400 + cycles.centuries * 100 + cycles.olympiads * 4 + cycles.years + 1

/-- The day with this ordinal. -/
def ofOrdinal (ordinal : ℤ) : Cycles :=
  let inQuadricentennium := (ordinal - 1) % 146097
  let centuries := min 3 (inQuadricentennium / 36524)
  let inCentury := inQuadricentennium - centuries * 36524
  let inOlympiad := inCentury % 1461
  let years := min 3 (inOlympiad / 365)
  { quadricentennia := (ordinal - 1) / 146097
    centuries := centuries
    olympiads := inCentury / 1461
    years := years
    days := inOlympiad - years * 365
    centuries_le := by omega
    olympiads_le := by omega
    years_le := by omega
    days_le := by omega
    intercalary := by omega }

theorem ordinal_eq (ordinal : ℤ) :
    ordinal = (ofOrdinal ordinal).quadricentennia * 146097 + (ofOrdinal ordinal).centuries * 36524 +
      (ofOrdinal ordinal).olympiads * 1461 + (ofOrdinal ordinal).years * 365 +
      (ofOrdinal ordinal).days + 1 := by
  unfold ofOrdinal
  dsimp only
  omega

theorem daysBeforeYear_year (cycles : Cycles) :
    daysBeforeYear cycles.year = cycles.quadricentennia * 146097 + cycles.centuries * 36524 +
      cycles.olympiads * 1461 + cycles.years * 365 := by
  obtain ⟨quadricentennia, centuries, olympiads, years, days, hcenturies, holympiads, hyears, -⟩ :=
    cycles
  unfold daysBeforeYear year
  dsimp only
  omega

theorem days_lt (cycles : Cycles) : cycles.days < daysInYear (isLeap cycles.year) := by
  obtain ⟨quadricentennia, centuries, olympiads, years, days, hcenturies, holympiads, hyears, hdays,
    hintercalary⟩ := cycles
  unfold daysInYear year
  dsimp only
  split
  · omega
  · rename_i hleap
    have hyear := of_decide_eq_false (eq_false_of_ne_true hleap)
    omega

end Cycles

/-! ## Months -/

/-- Months are numbered from 1; any other number is of an empty month. -/
def daysInMonth (leap : Bool) : ℕ → ℕ
  | 1 | 3 | 5 | 7 | 8 | 10 | 12 => 31
  | 4 | 6 | 9 | 11 => 30
  | 2 => if leap then 29 else 28
  | _ => 0

/-- The days of the year before the month. -/
def daysBeforeMonth (leap : Bool) : ℕ → ℕ
  | 0 => 0
  | month + 1 => daysBeforeMonth leap month + daysInMonth leap month

theorem daysBeforeMonth_one (leap : Bool) : daysBeforeMonth leap 1 = 0 := by
  cases leap <;> rfl

theorem daysBeforeMonth_thirteen (leap : Bool) : daysBeforeMonth leap 13 = daysInYear leap := by
  cases leap <;> rfl

theorem daysBeforeMonth_le {leap : Bool} {month later : ℕ} (h : month < later) :
    daysBeforeMonth leap (month + 1) ≤ daysBeforeMonth leap later := by
  induction later, h using Nat.le_induction with
  | base => exact Nat.le_refl _
  | succ later _ ih => exact ih.trans (Nat.le_add_right _ _)

/-- The last month from `month` down that starts before the day of the year. -/
def monthOfDay (leap : Bool) (day : ℕ) : ℕ → ℕ
  | 0 => 0
  | month + 1 =>
      if daysBeforeMonth leap (month + 1) < day then month + 1 else monthOfDay leap day month

theorem monthOfDay_spec {leap : Bool} {day : ℕ} (hday : 0 < day) {month : ℕ}
    (hmonth : day ≤ daysBeforeMonth leap (month + 1)) :
    1 ≤ monthOfDay leap day month ∧ monthOfDay leap day month ≤ month ∧
      daysBeforeMonth leap (monthOfDay leap day month) < day ∧
      day ≤ daysBeforeMonth leap (monthOfDay leap day month + 1) := by
  induction month with
  | zero =>
      rw [daysBeforeMonth_one] at hmonth
      omega
  | succ month ih =>
      unfold monthOfDay
      split
      · rename_i hstarts
        exact ⟨Nat.le_add_left .., Nat.le_refl _, hstarts, hmonth⟩
      · rename_i hstarts
        obtain ⟨hone, hle, hbefore, hafter⟩ := ih (Nat.le_of_not_lt hstarts)
        exact ⟨hone, Nat.le_succ_of_le hle, hbefore, hafter⟩

/-! ## Dates -/

@[ext]
structure Date where
  year : ℤ
  month : ℕ
  day : ℕ
  month_pos : 1 ≤ month
  month_le : month ≤ 12
  day_pos : 1 ≤ day
  day_le : day ≤ daysInMonth (isLeap year) month

namespace Date

def ordinal (date : Date) : ℤ :=
  daysBeforeYear date.year + daysBeforeMonth (isLeap date.year) date.month + date.day

/-- Monday is 0 and Sunday 6. -/
def weekday (date : Date) : ℤ := (date.ordinal + 6) % 7

/-- The day of the year, counted from 1. -/
def dayOfYear (ordinal : ℤ) : ℕ := ((Cycles.ofOrdinal ordinal).days + 1).toNat

theorem dayOfYear_pos (ordinal : ℤ) : 0 < dayOfYear ordinal := by
  have hdays := (Cycles.ofOrdinal ordinal).days_le
  unfold dayOfYear
  omega

theorem dayOfYear_le (ordinal : ℤ) :
    dayOfYear ordinal ≤
      daysBeforeMonth (isLeap (Cycles.ofOrdinal ordinal).year) (12 + 1) := by
  have hdays := (Cycles.ofOrdinal ordinal).days_lt
  rw [daysBeforeMonth_thirteen]
  unfold dayOfYear
  omega

/-- The date with this ordinal. -/
def ofOrdinal (ordinal : ℤ) : Date :=
  let leap := isLeap (Cycles.ofOrdinal ordinal).year
  let month := monthOfDay leap (dayOfYear ordinal) 12
  have hmonth := monthOfDay_spec (dayOfYear_pos ordinal) (dayOfYear_le ordinal)
  { year := (Cycles.ofOrdinal ordinal).year
    month := month
    day := dayOfYear ordinal - daysBeforeMonth leap month
    month_pos := hmonth.1
    month_le := hmonth.2.1
    day_pos := Nat.sub_pos_of_lt hmonth.2.2.1
    day_le := Nat.sub_le_of_le_add (hmonth.2.2.2.trans_eq (Nat.add_comm ..)) }

@[simp] theorem ordinal_ofOrdinal (ordinal : ℤ) : (ofOrdinal ordinal).ordinal = ordinal := by
  have hcycles := Cycles.ordinal_eq ordinal
  have hdays := (Cycles.ofOrdinal ordinal).days_le
  have hday : (dayOfYear ordinal : ℤ) = (Cycles.ofOrdinal ordinal).days + 1 :=
    Int.toNat_of_nonneg (by omega)
  have hmonth := monthOfDay_spec (dayOfYear_pos ordinal) (dayOfYear_le ordinal)
  unfold Date.ordinal ofOrdinal
  dsimp only
  rw [Cycles.daysBeforeYear_year]
  omega

@[simp] theorem weekday_ofOrdinal (ordinal : ℤ) :
    (ofOrdinal ordinal).weekday = (ordinal + 6) % 7 := by
  unfold weekday
  rw [ordinal_ofOrdinal]

/-! ## The order of dates -/

/-- Years first, then months, then days. -/
def Before (date later : Date) : Prop :=
  date.year < later.year ∨ date.year = later.year ∧
    (date.month < later.month ∨ date.month = later.month ∧ date.day < later.day)

theorem daysBeforeYear_lt_ordinal (date : Date) : daysBeforeYear date.year < date.ordinal := by
  have hday := date.day_pos
  unfold ordinal
  omega

theorem ordinal_le_daysBeforeYear (date : Date) :
    date.ordinal ≤ daysBeforeYear (date.year + 1) := by
  have hday := date.day_le
  have hmonth := @daysBeforeMonth_le (isLeap date.year) _ _ (Nat.lt_succ_of_le date.month_le)
  rw [daysBeforeMonth, daysBeforeMonth_thirteen] at hmonth
  rw [daysBeforeYear_succ]
  unfold ordinal
  omega

theorem ordinal_lt_of_before {date later : Date} (h : date.Before later) :
    date.ordinal < later.ordinal := by
  rcases h with hyear | ⟨hyear, hmonth | ⟨hmonth, hday⟩⟩
  · calc
      date.ordinal ≤ daysBeforeYear (date.year + 1) := date.ordinal_le_daysBeforeYear
      _ ≤ daysBeforeYear later.year := daysBeforeYear_lt hyear
      _ < later.ordinal := later.daysBeforeYear_lt_ordinal
  · have hfirst := date.day_le
    have hsecond := later.day_pos
    have hdays := @daysBeforeMonth_le (isLeap later.year) _ _ hmonth
    unfold ordinal
    rw [hyear] at hfirst ⊢
    rw [daysBeforeMonth] at hdays
    omega
  · unfold ordinal
    rw [hyear, hmonth]
    omega

theorem before_trichotomy (date other : Date) :
    date.Before other ∨ date = other ∨ other.Before date := by
  unfold Before
  rw [Date.ext_iff]
  omega

/-- **Ordinals are ordered as dates are.** -/
theorem ordinal_lt_ordinal_iff {date later : Date} :
    date.ordinal < later.ordinal ↔ date.Before later := by
  refine ⟨fun h => ?_, ordinal_lt_of_before⟩
  rcases before_trichotomy date later with hbefore | rfl | hafter
  · exact hbefore
  · exact absurd h (Int.lt_irrefl _)
  · exact absurd (ordinal_lt_of_before hafter) (Int.not_lt.mpr (Int.le_of_lt h))

/-- No two dates have the same ordinal. -/
theorem ordinal_inj {date other : Date} : date.ordinal = other.ordinal ↔ date = other := by
  refine ⟨fun h => ?_, fun h => h ▸ rfl⟩
  rcases before_trichotomy date other with hbefore | hsame | hafter
  · exact absurd h (Int.ne_of_lt (ordinal_lt_of_before hbefore))
  · exact hsame
  · exact absurd h.symm (Int.ne_of_lt (ordinal_lt_of_before hafter))

/-- The years from `first` on are the days after those before it. -/
theorem le_year_iff {first : ℤ} {date : Date} :
    first ≤ date.year ↔ daysBeforeYear first < date.ordinal := by
  constructor
  · intro h
    have hfirst := daysBeforeYear_le h
    exact hfirst.trans_lt date.daysBeforeYear_lt_ordinal
  · intro h
    by_contra hyear
    have hlast := daysBeforeYear_lt (Int.not_le.mp hyear)
    exact absurd (date.ordinal_le_daysBeforeYear.trans hlast) (Int.not_le.mpr h)

end Date

/-! ## Instants that recur -/

section recurring

variable {α : Type*} [AddCommGroup α] [LinearOrder α] [IsOrderedAddMonoid α]

/-- Any two of the instants are whole periods apart. -/
def Recurring (period : α) (instants : Set α) : Prop :=
  ∀ one ∈ instants, ∀ other ∈ instants, ∃ count : ℤ, other = one + count • period

variable {period start bound : α} {instants : Set α}

/-- **The last one so far is the one that less than a period has passed since.** -/
theorem Recurring.isGreatest (h : Recurring period instants) (hperiod : 0 < period)
    (hstart : start ∈ instants) (hle : start ≤ bound) (hlt : bound < start + period) :
    IsGreatest {instant | instant ∈ instants ∧ instant ≤ bound} start := by
  refine ⟨⟨hstart, hle⟩, ?_⟩
  rintro other ⟨hother, hbound⟩
  obtain ⟨count, rfl⟩ := h start hstart other hother
  have hcount : count • period < (1 : ℤ) • period := by
    rw [one_zsmul]
    exact lt_of_add_lt_add_left (hbound.trans_lt hlt)
  have hnone : count ≤ 0 := Int.lt_add_one_iff.mp ((zsmul_lt_zsmul_iff_left hperiod).mp hcount)
  have hback : count • period ≤ (0 : ℤ) • period := zsmul_le_zsmul_left hperiod.le hnone
  rw [zero_zsmul] at hback
  exact add_le_of_nonpos_right hback

end recurring

end Library
end SiliconOffice
