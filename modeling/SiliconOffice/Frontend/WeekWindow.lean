import Mathlib.Tactic.NormNum
import SiliconOffice.Python.DateTime
import SiliconOffice.Frontend.Usage

/-!
# The weekly reset

`weekWindowStart` is `_week_window_start`, where local time is a fixed time ahead of UTC.  It
goes back from today to the weekday of the reset, and by another week when that is today and
the hour has not come yet; `weekWindowStart_eq` says what the steps come to.

`ResetsAt` says what a reset is, on the calendar and without `datetime`.  Resets are a week
apart (`recurring_resetsAt`), so the one that less than a week has passed since is the last
one (`weekWindowStart_isLast`).  `fromtimestamp` makes whole microseconds of the time, so
"so far" is up to the nearest microsecond.
-/

namespace SiliconOffice
namespace Frontend

open Library Python

/-- `WEEK_RESET_WEEKDAY`: Thursday. -/
def weekResetWeekday : ℤ := 3

def weekResetHour : ℕ := 6

/-- `_week_window_start`. -/
def weekWindowStart (utcoffset : ℤ) (now : ℚ) : Except PyErr ℚ := do
  let localNow ← DateTime.fromTimestamp utcoffset now
  let candidate ← localNow.replace weekResetHour 0 0 0
  let candidate ← candidate.minusDays ((candidate.weekday - weekResetWeekday) % 7)
  -- today is the day, but it is not the hour yet
  let candidate ← if localNow < candidate then candidate.minusDays 7 else .ok candidate
  .ok (candidate.timestamp utcoffset)

/-! ## Resets -/

/-- At this instant it is the weekday and the hour of the reset in local time. -/
def ResetsAt (utcoffset : ℤ) (instant : ℚ) : Prop :=
  ∃ date : Date, date.weekday = weekResetWeekday ∧
    instant + utcoffset / 1000000 =
      ((date.ordinal - epochOrdinal) * 86400 + weekResetHour * 3600 : ℤ)

/-- The microsecond that `fromtimestamp` takes an instant for. -/
def nearestMicrosecond (instant : ℚ) : ℚ := roundHalfEven (instant * 1000000) / 1000000

/-- The hour of the reset on the day with this ordinal, as the clock on the wall shows it. -/
def resetTicks (ordinal : ℤ) : ℤ :=
  (ordinal - epochOrdinal) * ticksPerDay + weekResetHour * ticksPerHour

/-- A week before the candidate, if its hour has not come yet. -/
def lastResetFrom (ticks candidate : ℤ) : ℤ :=
  if ticks < resetTicks candidate then candidate - 7 else candidate

/-- The day of the last reset, when the clock on the wall shows `ticks`. -/
def lastReset (ticks : ℤ) : ℤ :=
  let today := ticks / ticksPerDay + epochOrdinal
  lastResetFrom ticks (today - ((today + 6) % 7 - weekResetWeekday) % 7)

/-- The instant of the reset on the day with this ordinal. -/
def resetInstant (utcoffset ordinal : ℤ) : ℚ := (resetTicks ordinal - utcoffset : ℤ) / 1000000

section ticks

variable {ticks : ℤ}

theorem weekday_lastReset (ticks : ℤ) : (lastReset ticks + 6) % 7 = weekResetWeekday := by
  simp only [lastReset, lastResetFrom, weekResetWeekday]
  split_ifs <;> omega

theorem resetTicks_lastReset_le (ticks : ℤ) : resetTicks (lastReset ticks) ≤ ticks := by
  unfold lastReset lastResetFrom
  dsimp only
  split
  · simp only [resetTicks, weekResetHour, ticksPerDay, ticksPerHour]
    omega
  · rename_i hcandidate
    exact Int.not_lt.mp hcandidate

theorem lt_resetTicks_lastReset (ticks : ℤ) :
    ticks < resetTicks (lastReset ticks + 7) := by
  unfold lastReset lastResetFrom
  dsimp only
  split
  · rename_i hcandidate
    rw [Int.sub_add_cancel]
    exact hcandidate
  · simp only [resetTicks, weekResetHour, ticksPerDay, ticksPerHour]
    omega

end ticks

/-- Resets are the hours of the days with their weekday. -/
theorem resetsAt_iff {utcoffset : ℤ} {instant : ℚ} :
    ResetsAt utcoffset instant ↔
      ∃ ordinal : ℤ, (ordinal + 6) % 7 = weekResetWeekday ∧
        instant = resetInstant utcoffset ordinal := by
  have hinstant : ∀ ordinal : ℤ,
      instant + utcoffset / 1000000 =
          ((ordinal - epochOrdinal) * 86400 + weekResetHour * 3600 : ℤ) ↔
        instant = resetInstant utcoffset ordinal := by
    intro ordinal
    simp only [resetInstant, resetTicks, ticksPerDay, ticksPerHour]
    push_cast
    constructor
    · intro h
      linarith
    · intro h
      linarith
  constructor
  · rintro ⟨date, hweekday, hdate⟩
    exact ⟨date.ordinal, hweekday, (hinstant _).mp hdate⟩
  · rintro ⟨ordinal, hweekday, hordinal⟩
    refine ⟨Date.ofOrdinal ordinal, ?_, (hinstant _).mpr ?_⟩
    · rw [Date.weekday_ofOrdinal]
      exact hweekday
    · rw [Date.ordinal_ofOrdinal]
      exact hordinal

/-- **A reset comes every week.** -/
theorem recurring_resetsAt (utcoffset : ℤ) :
    Recurring (604800 : ℚ) {instant | ResetsAt utcoffset instant} := by
  intro one hone other hother
  obtain ⟨day, hday, rfl⟩ := resetsAt_iff.mp hone
  obtain ⟨day', hday', rfl⟩ := resetsAt_iff.mp hother
  refine ⟨(day' - day) / 7, ?_⟩
  have hweeks : day' = day + (day' - day) / 7 * 7 := by omega
  generalize (day' - day) / 7 = weeks at hweeks ⊢
  subst hweeks
  simp only [resetInstant, resetTicks, ticksPerDay, ticksPerHour, zsmul_eq_mul]
  push_cast
  ring

/-! ## What the steps come to -/

theorem timestamp_of_reset {utcoffset : ℤ} {reset : DateTime}
    (hclock : reset.clock = weekResetHour * ticksPerHour) :
    reset.timestamp utcoffset = resetInstant utcoffset reset.ordinal := by
  unfold DateTime.timestamp DateTime.ticks resetInstant resetTicks
  rw [hclock]

/-- Comparing the fields finds out whether the hour has come. -/
theorem lastResetFrom_eq {localNow candidate : DateTime}
    (hclock : candidate.clock = weekResetHour * ticksPerHour) :
    lastResetFrom localNow.ticks candidate.ordinal =
      if localNow < candidate then candidate.ordinal - 7 else candidate.ordinal := by
  have hticks : resetTicks candidate.ordinal = candidate.ticks := by
    unfold resetTicks DateTime.ticks
    rw [hclock]
  unfold lastResetFrom
  simp only [hticks, DateTime.lt_iff]

/-- **The result is the last reset**, unless it was before the year 1. -/
theorem weekWindowStart_eq (utcoffset : ℤ) (now : ℚ) :
    weekWindowStart utcoffset now =
      match DateTime.fromTimestamp utcoffset now with
      | .error exception => .error exception
      | .ok localNow =>
          if 1 ≤ lastReset localNow.ticks then
            .ok (resetInstant utcoffset (lastReset localNow.ticks))
          else .error .overflowError := by
  unfold weekWindowStart
  cases hlocal : DateTime.fromTimestamp utcoffset now with
  | error exception => rfl
  | ok localNow =>
      obtain ⟨atHour, hatHour⟩ : ∃ atHour, localNow.replace weekResetHour 0 0 0 = .ok atHour :=
        ⟨_, dif_pos (by decide)⟩
      obtain ⟨htoday, hclock⟩ := DateTime.replace_eq hatHour
      have hweekday : atHour.weekday = (localNow.ordinal + 6) % 7 := by
        unfold Date.weekday
        rw [htoday]
      have hlast : lastReset localNow.ticks = lastResetFrom localNow.ticks
          (atHour.ordinal - ((atHour.ordinal + 6) % 7 - weekResetWeekday) % 7) := by
        unfold lastReset
        rw [DateTime.ordinal_of_ticks, htoday]
      rw [ok_bind, hatHour, ok_bind, hweekday, ← htoday]
      dsimp only
      rw [hlast]
      have hback := Int.emod_nonneg ((atHour.ordinal + 6) % 7 - weekResetWeekday)
        (show (7 : ℤ) ≠ 0 by decide)
      generalize ((atHour.ordinal + 6) % 7 - weekResetWeekday) % 7 = back at hback ⊢
      -- back to the weekday
      rcases atHour.minusDays_cases hback with ⟨candidate, hcandidate, hday, hhour⟩ | ⟨herror, hday⟩
      · have hreset : candidate.clock = weekResetHour * ticksPerHour := hhour.trans hclock
        rw [hcandidate, ok_bind, ← hday, lastResetFrom_eq hreset]
        by_cases hlater : localNow < candidate
        · simp only [if_pos hlater]
          -- and by another week
          rcases candidate.minusDays_cases (show (0 : ℤ) ≤ 7 by decide) with
            ⟨previous, hprevious, hday', hhour'⟩ | ⟨herror, hday'⟩
          · rw [hprevious, ok_bind, timestamp_of_reset (hhour'.trans hreset), ← hday',
              if_pos previous.ordinal_pos]
          · rw [herror, if_neg (Int.not_le.mpr hday')]
            rfl
        · simp only [if_neg hlater]
          rw [ok_bind, timestamp_of_reset hreset, if_pos candidate.ordinal_pos]
      · rw [herror, if_neg]
        · rfl
        · unfold lastResetFrom
          split <;> omega

/-! ## The last reset -/

/-- What the clock on the wall shows at an instant. -/
def wallTicks (utcoffset : ℤ) (instant : ℚ) : ℤ :=
  roundHalfEven (instant * 1000000) + utcoffset

/-- From the first reset in the years of a `datetime`, on Thursday 4 January of the year 1, to
the end of those years. -/
def Representable (utcoffset : ℤ) (now : ℚ) : Prop :=
  resetTicks 4 ≤ wallTicks utcoffset now ∧
    wallTicks utcoffset now < (maxOrdinal + 1 - epochOrdinal) * ticksPerDay

/-- The window that is open at `now` starts with the last reset. -/
structure LastReset (utcoffset : ℤ) (now start : ℚ) : Prop where
  greatest :
    IsGreatest {instant | ResetsAt utcoffset instant ∧ instant ≤ nearestMicrosecond now} start
  past : start ≤ now → IsGreatest {instant | ResetsAt utcoffset instant ∧ instant ≤ now} start
  due : start ≤ now + 1 / 2000000
  recent : now < start + 604800

variable {utcoffset : ℤ} {instant now later start next : ℚ}

theorem lastReset_pos_iff {ticks : ℤ} (hyears : (1 - epochOrdinal) * ticksPerDay ≤ ticks) :
    1 ≤ lastReset ticks ↔ resetTicks 4 ≤ ticks := by
  have hweekday := weekday_lastReset ticks
  have hle := resetTicks_lastReset_le ticks
  have hlt := lt_resetTicks_lastReset ticks
  simp only [resetTicks, weekResetWeekday, epochOrdinal, weekResetHour, ticksPerDay,
    ticksPerHour] at *
  omega

/-- **When there is a result, and which.** -/
theorem weekWindowStart_eq_ok_iff :
    weekWindowStart utcoffset now = .ok start ↔
      Representable utcoffset now ∧
        start = resetInstant utcoffset (lastReset (wallTicks utcoffset now)) := by
  have hread := @DateTime.fromTimestamp_eq_ok_iff
  have hrange := @DateTime.ofTicks_returns_iff (wallTicks utcoffset now)
  rw [weekWindowStart_eq]
  unfold Representable
  cases hlocal : DateTime.fromTimestamp utcoffset now with
  | error exception =>
      refine iff_of_false (by simp) ?_
      rintro ⟨⟨hfirst, hlast⟩, -⟩
      -- the day before the first reset is in the year 1 too
      have hsecond : (2 - epochOrdinal) * ticksPerDay ≤ wallTicks utcoffset now := by
        refine le_trans ?_ hfirst
        decide
      have hyears : (1 - epochOrdinal) * ticksPerDay ≤ wallTicks utcoffset now := by
        refine le_trans ?_ hsecond
        decide
      obtain ⟨localNow, hok⟩ := hrange.mpr ⟨hyears, hlast⟩
      rw [hread.mpr ⟨hok, hsecond⟩] at hlocal
      cases hlocal
  | ok localNow =>
      have hok : DateTime.ofTicks (wallTicks utcoffset now) = .ok localNow := (hread.mp hlocal).1
      obtain ⟨hyears, hlast⟩ := hrange.mp ⟨localNow, hok⟩
      dsimp only
      rw [DateTime.ticks_of_ofTicks hok, ← lastReset_pos_iff hyears]
      split
      · rename_i hfirst
        simp [hfirst, hlast, eq_comm]
      · rename_i hfirst
        simp [hfirst]

theorem nearestMicrosecond_mono (h : now ≤ later) :
    nearestMicrosecond now ≤ nearestMicrosecond later := by
  unfold nearestMicrosecond
  have hround := roundHalfEven_mono (show now * 1000000 ≤ later * 1000000 by linarith)
  have hround' : (roundHalfEven (now * 1000000) : ℚ) ≤ roundHalfEven (later * 1000000) := by
    exact_mod_cast hround
  linarith

theorem nearestMicrosecond_le (instant : ℚ) :
    nearestMicrosecond instant ≤ instant + 1 / 2000000 := by
  have hround := roundHalfEven_le (instant * 1000000)
  unfold nearestMicrosecond
  linarith

theorem le_nearestMicrosecond (instant : ℚ) :
    instant ≤ nearestMicrosecond instant + 1 / 2000000 := by
  have hround := le_roundHalfEven (instant * 1000000)
  unfold nearestMicrosecond
  linarith

/-- The clock on the wall shows whole microseconds. -/
theorem nearestMicrosecond_eq (utcoffset : ℤ) (instant : ℚ) :
    nearestMicrosecond instant = (wallTicks utcoffset instant - utcoffset : ℤ) / 1000000 := by
  unfold nearestMicrosecond wallTicks
  rw [Int.add_sub_cancel]

theorem lastReset_le (utcoffset : ℤ) (now : ℚ) :
    resetInstant utcoffset (lastReset (wallTicks utcoffset now)) ≤ nearestMicrosecond now := by
  have hle := resetTicks_lastReset_le (wallTicks utcoffset now)
  rw [nearestMicrosecond_eq utcoffset]
  unfold resetInstant
  rw [div_le_div_iff_of_pos_right (by norm_num), Int.cast_le]
  omega

/-- The next reset is at least a microsecond away. -/
theorem le_nextReset (utcoffset : ℤ) (now : ℚ) :
    nearestMicrosecond now + 1 / 1000000 ≤
      resetInstant utcoffset (lastReset (wallTicks utcoffset now)) + 604800 := by
  have hlt := lt_resetTicks_lastReset (wallTicks utcoffset now)
  have hweek : resetTicks (lastReset (wallTicks utcoffset now) + 7) =
      resetTicks (lastReset (wallTicks utcoffset now)) + 604800000000 := by
    simp only [resetTicks, ticksPerDay, ticksPerHour]
    omega
  have hlt' : ((wallTicks utcoffset now - utcoffset : ℤ) : ℚ) + 1 ≤
      (resetTicks (lastReset (wallTicks utcoffset now)) - utcoffset : ℤ) + 604800000000 := by
    exact_mod_cast (by omega)
  rw [nearestMicrosecond_eq utcoffset]
  unfold resetInstant
  linarith

theorem lastReset_of_ok (h : weekWindowStart utcoffset now = .ok start) :
    LastReset utcoffset now start := by
  obtain ⟨-, rfl⟩ := weekWindowStart_eq_ok_iff.mp h
  have hreset : ResetsAt utcoffset
      (resetInstant utcoffset (lastReset (wallTicks utcoffset now))) :=
    resetsAt_iff.mpr ⟨_, weekday_lastReset _, rfl⟩
  have hdue := lastReset_le utcoffset now
  have hnext := le_nextReset utcoffset now
  have hnear := nearestMicrosecond_le now
  have hnear' := le_nearestMicrosecond now
  have hrecent : now <
      resetInstant utcoffset (lastReset (wallTicks utcoffset now)) + 604800 := by linarith
  exact
    { greatest := (recurring_resetsAt utcoffset).isGreatest (by norm_num) hreset hdue (by linarith)
      past := fun hle =>
        (recurring_resetsAt utcoffset).isGreatest (by norm_num) hreset hle hrecent
      due := by linarith
      recent := hrecent }

/-- Later windows start later. -/
theorem weekWindowStart_mono (hnow : now ≤ later)
    (hstart : weekWindowStart utcoffset now = .ok start)
    (hnext : weekWindowStart utcoffset later = .ok next) : start ≤ next := by
  have hreset := (lastReset_of_ok hstart).greatest.1
  exact (lastReset_of_ok hnext).greatest.2
    ⟨hreset.1, hreset.2.trans (nearestMicrosecond_mono hnow)⟩

/-- Of a time in whole microseconds nothing is lost: the window starts with the last reset there
has been. -/
theorem isGreatest_of_whole {microseconds : ℤ}
    (h : weekWindowStart utcoffset (microseconds / 1000000) = .ok start) :
    IsGreatest {instant | ResetsAt utcoffset instant ∧ instant ≤ microseconds / 1000000} start := by
  have hwhole : nearestMicrosecond (microseconds / 1000000) = microseconds / 1000000 := by
    rw [nearestMicrosecond, div_mul_cancel₀ _ (by norm_num), roundHalfEven_intCast]
  have hgreatest := (lastReset_of_ok h).greatest
  rwa [hwhole] at hgreatest

/-- **The window starts with the last reset.**  For every time that the years of a `datetime`
can hold with the reset before it, and only for those, there is a result: the last reset up
to the nearest microsecond, which is the last reset there has been whenever it is not in the
half microsecond to come; and it never goes back. -/
theorem weekWindowStart_isLast (utcoffset : ℤ) :
    (∀ now, (∃ start, weekWindowStart utcoffset now = .ok start) ↔
      Representable utcoffset now) ∧
    (∀ now start, weekWindowStart utcoffset now = .ok start → LastReset utcoffset now start) ∧
    ∀ now later start next, now ≤ later → weekWindowStart utcoffset now = .ok start →
      weekWindowStart utcoffset later = .ok next → start ≤ next := by
  refine ⟨fun now => ⟨?_, fun h => ⟨_, weekWindowStart_eq_ok_iff.mpr ⟨h, rfl⟩⟩⟩,
    fun now start => lastReset_of_ok, fun now later start next => weekWindowStart_mono⟩
  rintro ⟨start, h⟩
  exact (weekWindowStart_eq_ok_iff.mp h).1

/-! ### The last quarter of a microsecond -/

/-- At a reset a window starts. -/
theorem lastReset_at_reset : LastReset 0 1767247200 1767247200 :=
  (weekWindowStart_isLast 0).2.1 _ _ (by decide +kernel)

-- a second earlier the last window of the old year is open
example : weekWindowStart 0 1767247199 = .ok 1766642400 := by decide +kernel

/-- A quarter of a microsecond before 06:00 on Thursday 1 January 2026, UTC. -/
def justBefore : ℚ := 1767247200 - 1 / 4194304

/-- `fromtimestamp` rounds that time up to the reset, and the window starts in the future.  Of a
time after the year 9999 it makes nothing at all. -/
theorem starts_too_early :
    (¬ ∀ (utcoffset : ℤ) (now start : ℚ), weekWindowStart utcoffset now = .ok start →
      IsGreatest {instant | ResetsAt utcoffset instant ∧ instant ≤ now} start) ∧
    ¬ ∀ (utcoffset : ℤ) (now : ℚ), ∃ start, weekWindowStart utcoffset now = .ok start := by
  constructor
  · intro hclaim
    have hstart : weekWindowStart 0 justBefore = .ok 1767247200 := by decide +kernel
    exact absurd (hclaim 0 justBefore 1767247200 hstart).1.2 (by decide +kernel)
  · intro hclaim
    obtain ⟨start, hstart⟩ := hclaim 0 1000000000000
    have herror : weekWindowStart 0 1000000000000 = .error .valueError := by decide +kernel
    rw [herror] at hstart
    cases hstart

/-! ## What counts for the week -/

section counting

variable {reader : UsageReader}

/-- The reader runs where local time is `utcoffset` microseconds ahead of UTC. -/
def InLocalTime (reader : UsageReader) (utcoffset : ℤ) : Prop :=
  ∀ now start, weekWindowStart utcoffset now = .ok start → reader.weekWindowStart now = start

theorem InLocalTime.week (h : InLocalTime reader utcoffset)
    (hnow : Representable utcoffset now) :
    weekWindowStart utcoffset now = .ok (reader.cutoffs now).week := by
  have hstart := weekWindowStart_eq_ok_iff.mpr ⟨hnow, rfl⟩
  rw [hstart]
  exact congrArg Except.ok (h _ _ hstart).symm

/-- **What is used counts for the week until the next reset.** -/
theorem countsForWeek_iff (h : InLocalTime reader utcoffset) (hnow : Representable utcoffset now)
    (entry : UsageEntry) :
    (reader.cutoffs now).week ≤ entry.timestamp ↔
      ∀ reset, ResetsAt utcoffset reset → reset ≤ nearestMicrosecond now →
        reset ≤ entry.timestamp := by
  have hgreatest := (lastReset_of_ok (h.week hnow)).greatest
  constructor
  · intro hcounts reset hreset hdue
    exact (hgreatest.2 ⟨hreset, hdue⟩).trans hcounts
  · intro hresets
    exact hresets _ hgreatest.1.1 hgreatest.1.2

end counting

end Frontend
end SiliconOffice
