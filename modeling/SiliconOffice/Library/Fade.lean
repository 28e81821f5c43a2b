import Mathlib.Algebra.Order.Field.Basic
import SiliconOffice.Library.OrderedDict

/-!
# Linear transitions

A transition that begins at one time and takes a fixed duration: `progress` is how far it has
come, between zero and one.

The times at which transitions began are kept in a dictionary.  `Lapsed` compares it with one
from which some were dropped that were over by then; nobody who reads it later can tell
(`Lapsed.elim_eq`).
-/

namespace SiliconOffice
namespace Library

variable {𝕜 : Type*} [Field 𝕜] [LinearOrder 𝕜] {duration start now later value other : 𝕜}

/-- The nearest value between zero and one. -/
def unitClamp (value : 𝕜) : 𝕜 :=
  max 0 (min 1 value)

theorem unitClamp_nonneg (value : 𝕜) : 0 ≤ unitClamp value :=
  le_max_left _ _

theorem unitClamp_mono (h : value ≤ other) : unitClamp value ≤ unitClamp other :=
  max_le_max le_rfl (min_le_min le_rfl h)

section ordered

variable [IsStrictOrderedRing 𝕜]

theorem unitClamp_le_one (value : 𝕜) : unitClamp value ≤ 1 :=
  max_le zero_le_one (min_le_left _ _)

theorem unitClamp_of_one_le (h : 1 ≤ value) : unitClamp value = 1 := by
  rw [unitClamp, min_eq_left h]
  exact max_eq_right zero_le_one

/-- How far a transition has come. -/
def progress (duration start now : 𝕜) : 𝕜 :=
  unitClamp ((now - start) / duration)

theorem progress_mono (hduration : 0 < duration) (h : now ≤ later) :
    progress duration start now ≤ progress duration start later := by
  apply unitClamp_mono
  gcongr

/-- It is over after its duration. -/
theorem progress_of_over (hduration : 0 < duration) (h : duration ≤ now - start) :
    progress duration start now = 1 := by
  apply unitClamp_of_one_le
  rwa [le_div_iff₀ hduration, one_mul]

end ordered

/-! ## Timers -/

variable {κ : Type*} [BEq κ] {timers timers' : OrderedDict κ 𝕜} {seen : List 𝕜}

/-- Some timers have been dropped, each of them after a look at the clock, at one of the times
`seen`, that found it to be over. -/
def Lapsed (duration : 𝕜) (seen : List 𝕜) (timers timers' : OrderedDict κ 𝕜) : Prop :=
  ∀ key, timers'.get? key = timers.get? key ∨
    timers'.get? key = none ∧
      ∃ start, timers.get? key = some start ∧ ∃ now ∈ seen, duration ≤ now - start

namespace Lapsed

theorem refl (timers : OrderedDict κ 𝕜) : Lapsed duration seen timers timers :=
  fun _ => .inl rfl

theorem mono {seen' : List 𝕜} (h : Lapsed duration seen timers timers')
    (hseen : ∀ now ∈ seen, now ∈ seen') : Lapsed duration seen' timers timers' := by
  intro key
  rcases h key with hsame | ⟨hnone, start, hstart, now, hnow, hover⟩
  · exact .inl hsame
  · exact .inr ⟨hnone, start, hstart, now, hseen now hnow, hover⟩

theorem trans {timers'' : OrderedDict κ 𝕜} (h : Lapsed duration seen timers timers')
    (h' : Lapsed duration seen timers' timers'') : Lapsed duration seen timers timers'' := by
  intro key
  rcases h' key with hsame' | ⟨hnone', start, hstart', now, hnow, hover⟩
  · rcases h key with hsame | ⟨hnone, hdropped⟩
    · exact .inl (hsame'.trans hsame)
    · exact .inr ⟨hsame'.trans hnone, hdropped⟩
  · rcases h key with hsame | ⟨hnone, -⟩
    · exact .inr ⟨hnone', start, hsame.symm.trans hstart', now, hnow, hover⟩
    · rw [hnone] at hstart'
      cases hstart'

theorem store [EquivBEq κ] (h : Lapsed duration seen timers timers') (key : κ) (start : 𝕜) :
    Lapsed duration seen (timers.store key start) (timers'.store key start) := by
  intro other
  rw [OrderedDict.get?_store, OrderedDict.get?_store]
  split
  · exact .inl rfl
  · exact h other

theorem discard [EquivBEq κ] (h : Lapsed duration seen timers timers') (key : κ) :
    Lapsed duration seen (timers.discard key) (timers'.discard key) := by
  intro other
  rw [OrderedDict.get?_discard, OrderedDict.get?_discard]
  split
  · exact .inl rfl
  · exact h other

/-- Dropping one more timer that is over. -/
theorem drop [EquivBEq κ] (h : Lapsed duration seen timers timers') {key : κ}
    (hstart : timers'.get? key = some start) (hnow : now ∈ seen)
    (hover : duration ≤ now - start) :
    Lapsed duration seen timers (timers'.discard key) := by
  intro other
  rw [OrderedDict.get?_discard]
  split
  · rename_i hsame
    rw [timers.get?_congr hsame]
    rcases h key with hget | ⟨hnone, -⟩
    · exact .inr ⟨rfl, start, hget.symm.trans hstart, now, hnow, hover⟩
    · rw [hnone] at hstart
      cases hstart
  · exact h other

/-- What is read off a timer shows no difference, if a timer that is over reads like one that
is not there. -/
theorem elim_eq {β : Type*} (h : Lapsed duration seen timers timers') {idle : β}
    {reading : 𝕜 → β}
    (hover : ∀ start now, now ∈ seen → duration ≤ now - start → reading start = idle) (key : κ) :
    (timers'.get? key).elim idle reading = (timers.get? key).elim idle reading := by
  rcases h key with hsame | ⟨hnone, start, hstart, now, hnow, hlong⟩
  · rw [hsame]
  · rw [hnone, hstart]
    exact (hover start now hnow hlong).symm

end Lapsed

end Library
end SiliconOffice
