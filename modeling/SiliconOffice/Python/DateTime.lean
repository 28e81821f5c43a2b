import Mathlib.Data.Rat.Floor
import Mathlib.Tactic.Linarith
import SiliconOffice.Library.Calendar
import SiliconOffice.Python.Json

/-!
# `datetime` objects

Naive ones, in the local time of a machine whose clock is a fixed time ahead of UTC.  A
`datetime` holds whole microseconds of the years 1 to 9999: `fromtimestamp` rounds to the
nearest one, and a result in another year is an exception.

* `roundHalfEven_le`, `le_roundHalfEven`, `roundHalfEven_mono` — what rounding may do;
* `ticks` — a `datetime` as a number of microseconds, which comparing fields compares
  (`lt_iff`) and `timestamp` takes back to an instant.
-/

namespace SiliconOffice
namespace Python

open Library

/-! ## Rounding -/

/-- To the nearest integer; of two, to the even one. -/
def roundHalfEven (value : ℚ) : ℤ :=
  let below := ⌊value⌋
  if value - below < 1 / 2 then below
  else if 1 / 2 < value - below then below + 1
  else if below % 2 = 0 then below else below + 1

theorem le_roundHalfEven (value : ℚ) : value - 1 / 2 ≤ roundHalfEven value := by
  have hlow := Int.floor_le value
  have hhigh := Int.lt_floor_add_one value
  unfold roundHalfEven
  dsimp only
  split_ifs <;> push_cast <;> linarith

theorem roundHalfEven_le (value : ℚ) : roundHalfEven value ≤ value + 1 / 2 := by
  have hlow := Int.floor_le value
  have hhigh := Int.lt_floor_add_one value
  unfold roundHalfEven
  dsimp only
  split_ifs <;> push_cast <;> linarith

theorem roundHalfEven_mono {value other : ℚ} (h : value ≤ other) :
    roundHalfEven value ≤ roundHalfEven other := by
  by_contra hless
  have hnext : (roundHalfEven other : ℚ) + 1 ≤ roundHalfEven value := by
    exact_mod_cast Int.add_one_le_of_lt (Int.not_le.mp hless)
  -- both are half-way between the two, so they are the same value
  have hsame : value = other := by
    refine le_antisymm h ?_
    have hvalue := roundHalfEven_le value
    have hother := le_roundHalfEven other
    linarith
  rw [hsame] at hless
  exact hless (Int.le_refl _)

@[simp] theorem roundHalfEven_intCast (value : ℤ) : roundHalfEven value = value := by
  unfold roundHalfEven
  simp

/-! ## Fields -/

/-- A naive `datetime`. -/
structure DateTime extends Date where
  hour : ℕ
  minute : ℕ
  second : ℕ
  microsecond : ℕ
  year_pos : 1 ≤ year
  year_le : year ≤ 9999
  hour_lt : hour < 24
  minute_lt : minute < 60
  second_lt : second < 60
  microsecond_lt : microsecond < 1000000

/-- `date(1970, 1, 1).toordinal()`. -/
def epochOrdinal : ℤ := 719163

/-- `date.max.toordinal()`. -/
def maxOrdinal : ℤ := 3652059

example : (Date.mk 1970 1 1 (by decide) (by decide) (by decide) (by decide)).ordinal =
    epochOrdinal := by decide

example : (Date.mk 9999 12 31 (by decide) (by decide) (by decide) (by decide)).ordinal =
    maxOrdinal := by decide

def ticksPerHour : ℤ := 3600000000

def ticksPerDay : ℤ := 24 * ticksPerHour

namespace DateTime

/-- What two of them are compared by. -/
def fields (d : DateTime) : List ℤ :=
  [d.year, d.month, d.day, d.hour, d.minute, d.second, d.microsecond]

instance : LT DateTime := ⟨fun d later => d.fields < later.fields⟩

instance (d later : DateTime) : Decidable (d < later) :=
  inferInstanceAs (Decidable (d.fields < later.fields))

/-- The microseconds since midnight. -/
def clock (d : DateTime) : ℤ :=
  ((d.hour * 60 + d.minute) * 60 + d.second) * 1000000 + d.microsecond

/-- The microseconds that the clock on the wall has shown since midnight of 1 January 1970. -/
def ticks (d : DateTime) : ℤ := (d.ordinal - epochOrdinal) * ticksPerDay + d.clock

/-- The `datetime` that the clock on the wall shows; only four digits of the year fit. -/
def ofTicks (ticks : ℤ) : Except PyErr DateTime :=
  let date := Date.ofOrdinal (ticks / ticksPerDay + epochOrdinal)
  let clock := ticks % ticksPerDay
  let seconds := clock / 1000000
  let minutes := seconds / 60
  if h : 1 ≤ date.year ∧ date.year ≤ 9999 then
    .ok
      { date with
        hour := (minutes / 60).toNat
        minute := (minutes % 60).toNat
        second := (seconds % 60).toNat
        microsecond := (clock % 1000000).toNat
        year_pos := h.1
        year_le := h.2
        hour_lt := by simp only [minutes, seconds, clock, ticksPerDay, ticksPerHour]; omega
        minute_lt := by omega
        second_lt := by omega
        microsecond_lt := by omega }
  else .error .valueError

/-- What `fromtimestamp` raises outside the years of a `datetime`: the seconds may not fit a
`time_t`, nor the year the `int` that `localtime` has for it. -/
def outOfRange (utcoffset microseconds : ℤ) : PyErr :=
  let year := (Date.ofOrdinal ((microseconds + utcoffset) / ticksPerDay + epochOrdinal)).year
  if microseconds / 1000000 < -2 ^ 63 ∨ 2 ^ 63 ≤ microseconds / 1000000 then .overflowError
  else if year - 1900 < -2 ^ 31 ∨ 2 ^ 31 ≤ year - 1900 then .osError
  else .valueError

/-- `datetime.fromtimestamp`, where local time is `utcoffset` microseconds ahead of UTC. -/
def fromTimestamp (utcoffset : ℤ) (timestamp : ℚ) : Except PyErr DateTime :=
  let microseconds := roundHalfEven (timestamp * 1000000)
  match ofTicks (microseconds + utcoffset) with
  | .error _ => .error (outOfRange utcoffset microseconds)
  | .ok d => do
      -- to see whether the clock has been set back, it makes the same time of the day before
      let _ ← ofTicks (microseconds + utcoffset - ticksPerDay)
      .ok d

/-- `d.replace(hour=…, minute=…, second=…, microsecond=…)`. -/
def replace (d : DateTime) (hour minute second microsecond : ℕ) : Except PyErr DateTime :=
  if h : hour < 24 ∧ minute < 60 ∧ second < 60 ∧ microsecond < 1000000 then
    .ok
      { d with
        hour := hour
        minute := minute
        second := second
        microsecond := microsecond
        hour_lt := h.1
        minute_lt := h.2.1
        second_lt := h.2.2.1
        microsecond_lt := h.2.2.2 }
  else .error .valueError

theorem year_pos_of_ordinal {ordinal : ℤ} (h : 1 ≤ ordinal) :
    1 ≤ (Date.ofOrdinal ordinal).year := by
  rw [Date.le_year_iff, Date.ordinal_ofOrdinal]
  exact h

theorem year_le_of_ordinal {ordinal : ℤ} (h : ordinal ≤ maxOrdinal) :
    (Date.ofOrdinal ordinal).year ≤ 9999 := by
  refine Int.lt_add_one_iff.mp (Int.not_le.mp fun hyear => ?_)
  rw [Date.le_year_iff, Date.ordinal_ofOrdinal] at hyear
  exact absurd hyear (Int.not_lt.mpr h)

/-- `d - timedelta(days=…)`. -/
def minusDays (d : DateTime) (days : ℤ) : Except PyErr DateTime :=
  if h : 1 ≤ d.ordinal - days ∧ d.ordinal - days ≤ maxOrdinal then
    .ok
      { Date.ofOrdinal (d.ordinal - days) with
        hour := d.hour
        minute := d.minute
        second := d.second
        microsecond := d.microsecond
        year_pos := year_pos_of_ordinal h.1
        year_le := year_le_of_ordinal h.2
        hour_lt := d.hour_lt
        minute_lt := d.minute_lt
        second_lt := d.second_lt
        microsecond_lt := d.microsecond_lt }
  else .error .overflowError

/-- `d.timestamp()`. -/
def timestamp (utcoffset : ℤ) (d : DateTime) : ℚ := (d.ticks - utcoffset : ℤ) / 1000000

variable {d later result : DateTime} {instant days : ℤ}

/-! ## Fields and ticks -/

theorem clock_nonneg (d : DateTime) : 0 ≤ d.clock := by
  simp only [clock]
  omega

theorem clock_lt (d : DateTime) : d.clock < ticksPerDay := by
  have hhour := d.hour_lt
  have hminute := d.minute_lt
  have hsecond := d.second_lt
  have hmicrosecond := d.microsecond_lt
  simp only [clock, ticksPerDay, ticksPerHour]
  omega

theorem ordinal_pos (d : DateTime) : 1 ≤ d.ordinal :=
  Date.le_year_iff.mp d.year_pos

theorem ordinal_le (d : DateTime) : d.ordinal ≤ maxOrdinal := by
  by_contra h
  have hyear : 10000 ≤ d.year := Date.le_year_iff.mpr (Int.not_le.mp h)
  have hlast := d.year_le
  omega

theorem ordinal_of_ticks (d : DateTime) : d.ticks / ticksPerDay + epochOrdinal = d.ordinal := by
  have hstart := d.clock_nonneg
  have hclock := d.clock_lt
  simp only [ticks, ticksPerDay, ticksPerHour] at *
  omega

theorem clock_lt_clock_iff :
    d.clock < later.clock ↔ d.hour < later.hour ∨ d.hour = later.hour ∧
      (d.minute < later.minute ∨ d.minute = later.minute ∧
        (d.second < later.second ∨ d.second = later.second ∧
          d.microsecond < later.microsecond)) := by
  have hminute := d.minute_lt
  have hminute' := later.minute_lt
  have hsecond := d.second_lt
  have hsecond' := later.second_lt
  have hmicrosecond := d.microsecond_lt
  have hmicrosecond' := later.microsecond_lt
  simp only [clock]
  omega

theorem ticks_lt_ticks_iff :
    d.ticks < later.ticks ↔ d.toDate.ordinal < later.toDate.ordinal ∨
      d.toDate.ordinal = later.toDate.ordinal ∧ d.clock < later.clock := by
  have hstart := d.clock_nonneg
  have hstart' := later.clock_nonneg
  have hclock := d.clock_lt
  have hclock' := later.clock_lt
  simp only [ticks, ticksPerDay, ticksPerHour] at *
  omega

/-- **The fields are compared as the ticks are.** -/
theorem lt_iff : d < later ↔ d.ticks < later.ticks := by
  rw [ticks_lt_ticks_iff, clock_lt_clock_iff, Date.ordinal_lt_ordinal_iff, Date.ordinal_inj,
    Date.ext_iff]
  show d.fields < later.fields ↔ _
  simp only [fields, Date.Before, List.cons_lt_cons_iff, List.lt_irrefl, and_false, or_false]
  omega

/-! ## What the operations give -/

theorem ticks_of_ofTicks (h : ofTicks instant = .ok d) : d.ticks = instant := by
  unfold ofTicks at h
  dsimp only at h
  split at h
  · cases h
    simp only [ticks, clock, Date.ordinal_ofOrdinal, ticksPerDay, ticksPerHour]
    omega
  · cases h

/-- A `datetime` can hold the days from its first to its last one. -/
theorem ofTicks_returns_iff :
    (∃ d, ofTicks instant = .ok d) ↔
      (1 - epochOrdinal) * ticksPerDay ≤ instant ∧
        instant < (maxOrdinal + 1 - epochOrdinal) * ticksPerDay := by
  constructor
  · rintro ⟨d, h⟩
    have hfirst := d.ordinal_pos
    have hlast := d.ordinal_le
    have hstart := d.clock_nonneg
    have hclock := d.clock_lt
    rw [← ticks_of_ofTicks h]
    simp only [ticks, ticksPerDay, ticksPerHour] at *
    omega
  · rintro ⟨hfirst, hlast⟩
    have hday : 1 ≤ instant / ticksPerDay + epochOrdinal ∧
        instant / ticksPerDay + epochOrdinal ≤ maxOrdinal := by
      simp only [ticksPerDay, ticksPerHour] at *
      omega
    unfold ofTicks
    dsimp only
    rw [dif_pos ⟨year_pos_of_ordinal hday.1, year_le_of_ordinal hday.2⟩]
    exact ⟨_, rfl⟩

/-- The first day of the year 1 has none before it. -/
theorem fromTimestamp_eq_ok_iff {utcoffset : ℤ} {timestamp : ℚ} :
    fromTimestamp utcoffset timestamp = .ok d ↔
      ofTicks (roundHalfEven (timestamp * 1000000) + utcoffset) = .ok d ∧
        (2 - epochOrdinal) * ticksPerDay ≤ roundHalfEven (timestamp * 1000000) + utcoffset := by
  unfold fromTimestamp
  dsimp only
  generalize roundHalfEven (timestamp * 1000000) = microseconds
  cases hlocal : ofTicks (microseconds + utcoffset) with
  | error exception => simp
  | ok shown =>
      have hyears := ofTicks_returns_iff.mp ⟨shown, hlocal⟩
      have hsecond : (∃ before, ofTicks (microseconds + utcoffset - ticksPerDay) = .ok before) ↔
          (2 - epochOrdinal) * ticksPerDay ≤ microseconds + utcoffset := by
        rw [ofTicks_returns_iff]
        simp only [ticksPerDay, ticksPerHour] at *
        omega
      rw [← hsecond]
      dsimp only
      cases hday : ofTicks (microseconds + utcoffset - ticksPerDay) with
      | error exception =>
          rw [error_bind]
          simp
      | ok before =>
          rw [ok_bind]
          simp

theorem replace_eq {hour minute second microsecond : ℕ}
    (h : d.replace hour minute second microsecond = .ok result) :
    result.ordinal = d.ordinal ∧
      result.clock = ((hour * 60 + minute) * 60 + second) * 1000000 + microsecond := by
  unfold replace at h
  split at h
  · cases h
    exact ⟨rfl, rfl⟩
  · cases h

/-- Going back leaves the time of the day, and stops at the year 1. -/
theorem minusDays_cases (d : DateTime) (hdays : 0 ≤ days) :
    (∃ result, d.minusDays days = .ok result ∧ result.ordinal = d.ordinal - days ∧
        result.clock = d.clock) ∨
      d.minusDays days = .error .overflowError ∧ d.ordinal - days < 1 := by
  have hlast := d.ordinal_le
  by_cases hfirst : 1 ≤ d.ordinal - days
  · left
    unfold minusDays
    rw [dif_pos ⟨hfirst, by omega⟩]
    exact ⟨_, rfl, Date.ordinal_ofOrdinal _, rfl⟩
  · right
    unfold minusDays
    rw [dif_neg fun hrange => hfirst hrange.1]
    exact ⟨rfl, Int.not_le.mp hfirst⟩

end DateTime

end Python
end SiliconOffice
