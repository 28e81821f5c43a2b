import Mathlib.Data.List.Basic

/-!
# Methods that write

A method of an object writes when it appends to an output that is part of the object, such as
a log or a display list.  `Writes` says which value a method comes to and what it appends, or
what it raises, by a `sketch` that does not mention the object; the rest of the object may
change as long as an invariant is kept.

It is kept by sequencing (`Writes.bind`), where the sketches are joined by `andThen`.
-/

namespace SiliconOffice
namespace Library

variable {ε σ ω α β : Type} {invariant : σ → Prop} {output : σ → List ω}

/-- From every object with the invariant the method does what the sketch says and keeps the
invariant. -/
def Writes (invariant : σ → Prop) (output : σ → List ω) (sketch : Except ε (α × List ω))
    (method : EStateM ε σ α) : Prop :=
  ∀ s, invariant s →
    (∀ value written, sketch = .ok (value, written) → ∃ s',
      method.run s = .ok value s' ∧ output s' = output s ++ written ∧ invariant s') ∧
    ∀ exception, sketch = .error exception → ∃ s',
      method.run s = .error exception s' ∧ invariant s'

theorem writes_pure (value : α) :
    Writes invariant output (.ok (value, [])) (pure value : EStateM ε σ α) := by
  intro s hs
  constructor
  · intro value' written h
    cases h
    exact ⟨s, rfl, (List.append_nil _).symm, hs⟩
  · intro exception h
    cases h

theorem writes_throw (exception : ε) :
    Writes invariant output (.error exception) (throw exception : EStateM ε σ α) := by
  intro s hs
  constructor
  · intro value written h
    cases h
  · intro exception' h
    cases h
    exact ⟨s, rfl, hs⟩

/-- A method that never raises. -/
theorem writes_of_ok {method : EStateM ε σ α} {value : α} {written : List ω}
    (h : ∀ s, invariant s → ∃ s', method.run s = .ok value s' ∧
      output s' = output s ++ written ∧ invariant s') :
    Writes invariant output (.ok (value, written)) method := by
  intro s hs
  constructor
  · intro value' written' hsketch
    cases hsketch
    exact h s hs
  · intro exception hsketch
    cases hsketch

/-- A method that always raises. -/
theorem writes_of_error {method : EStateM ε σ α} {exception : ε}
    (h : ∀ s, invariant s → ∃ s', method.run s = .error exception s' ∧ invariant s') :
    Writes invariant output (.error exception) method := by
  intro s hs
  constructor
  · intro value written hsketch
    cases hsketch
  · intro exception' hsketch
    cases hsketch
    exact h s hs

/-- A method that reads the object first. -/
theorem writes_get_bind {sketch : Except ε (α × List ω)} {next : σ → EStateM ε σ α}
    (h : ∀ s, invariant s → Writes invariant output sketch (next s)) :
    Writes invariant output sketch (get >>= next) :=
  fun s hs => h s hs s hs

/-- One piece of writing after another. -/
def andThen (first : Except ε (α × List ω)) (next : α → Except ε (β × List ω)) :
    Except ε (β × List ω) :=
  match first with
  | .ok wrote => (next wrote.1).map fun later => (later.1, wrote.2 ++ later.2)
  | .error exception => .error exception

@[simp] theorem andThen_ok (value : α) (written : List ω) (next : α → Except ε (β × List ω)) :
    andThen (.ok (value, written)) next =
      (next value).map fun later => (later.1, written ++ later.2) := rfl

/-- One method after another. -/
theorem Writes.bind {first : Except ε (α × List ω)} {next : α → Except ε (β × List ω)}
    {method : EStateM ε σ α} {rest : α → EStateM ε σ β}
    (hfirst : Writes invariant output first method)
    (hnext : ∀ value, Writes invariant output (next value) (rest value)) :
    Writes invariant output (andThen first next) (method >>= rest) := by
  intro s hs
  rw [EStateM.run_bind]
  cases first with
  | error exception =>
      obtain ⟨middle, hrun, hmiddle⟩ := (hfirst s hs).2 exception rfl
      rw [hrun]
      constructor
      · intro value written h
        cases h
      · intro exception' h
        cases h
        exact ⟨middle, rfl, hmiddle⟩
  | ok wrote =>
      obtain ⟨value, written⟩ := wrote
      obtain ⟨middle, hrun, houtput, hmiddle⟩ := (hfirst s hs).1 value written rfl
      obtain ⟨hok, herror⟩ := hnext value middle hmiddle
      rw [hrun, andThen_ok]
      cases hlater : next value with
      | error exception =>
          obtain ⟨final, hfinal, hkept⟩ := herror exception hlater
          constructor
          · intro result all h
            cases h
          · intro exception' h
            cases h
            exact ⟨final, hfinal, hkept⟩
      | ok later =>
          obtain ⟨final, hfinal, hlast, hkept⟩ := hok later.1 later.2 hlater
          constructor
          · intro result all h
            cases h
            refine ⟨final, hfinal, ?_, hkept⟩
            rw [hlast, houtput, List.append_assoc]
          · intro exception h
            cases h

/-- A first half that writes nothing. -/
theorem Writes.bind_silent {sketch : Except ε (β × List ω)} {method : EStateM ε σ α} {value : α}
    {rest : α → EStateM ε σ β} (hfirst : Writes invariant output (.ok (value, [])) method)
    (hnext : Writes invariant output sketch (rest value)) :
    Writes invariant output sketch (method >>= rest) := by
  intro s hs
  obtain ⟨middle, hrun, houtput, hmiddle⟩ := (hfirst s hs).1 value [] rfl
  rw [List.append_nil] at houtput
  rw [EStateM.run_bind, hrun, ← houtput]
  exact hnext middle hmiddle

end Library
end SiliconOffice
