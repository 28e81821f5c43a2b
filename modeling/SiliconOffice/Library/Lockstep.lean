import Mathlib.Logic.Function.Defs

/-!
# Methods in lockstep

Two methods, each on a state of its own.  `Lockstep R` says that from related states they
come to the same value or raise the same exception, and leave related states.

It is kept by sequencing, so that it is proved of two methods statement by statement.  With
one method for both it says what the method does not depend on.
-/

namespace SiliconOffice
namespace Library

variable {ε σ τ α β : Type} {R : σ → τ → Prop}

/-- The same value or the same exception, over related states. -/
inductive Alike (R : σ → τ → Prop) : EStateM.Result ε σ α → EStateM.Result ε τ α → Prop
  | ok (value : α) {s : σ} {t : τ} (h : R s t) : Alike R (.ok value s) (.ok value t)
  | error (exception : ε) {s : σ} {t : τ} (h : R s t) :
      Alike R (.error exception s) (.error exception t)

/-- From related states the two methods come to results that are alike. -/
def Lockstep (R : σ → τ → Prop) (method : EStateM ε σ α) (method' : EStateM ε τ α) : Prop :=
  ∀ s t, R s t → Alike R (method.run s) (method'.run t)

theorem lockstep_pure (value : α) :
    Lockstep R (pure value : EStateM ε σ α) (pure value) :=
  fun _ _ h => .ok value h

/-- One method after another. -/
theorem Lockstep.bind {first : EStateM ε σ α} {first' : EStateM ε τ α}
    {next : α → EStateM ε σ β} {next' : α → EStateM ε τ β} (hfirst : Lockstep R first first')
    (hnext : ∀ value, Lockstep R (next value) (next' value)) :
    Lockstep R (first >>= next) (first' >>= next') := by
  intro s t h
  rw [EStateM.run_bind, EStateM.run_bind]
  have hmiddle := hfirst s t h
  generalize first.run s = result, first'.run t = result' at hmiddle ⊢
  cases hmiddle with
  | ok value hmiddle => exact hnext value _ _ hmiddle
  | error exception hmiddle => exact .error exception hmiddle

/-- Methods that read their states go on as they do from these states. -/
theorem lockstep_get_bind {next : σ → EStateM ε σ β} {next' : τ → EStateM ε τ β}
    (hnext : ∀ s t, R s t → Alike R ((next s).run s) ((next' t).run t)) :
    Lockstep R (get >>= next) (get >>= next') :=
  fun s t h => hnext s t h

end Library
end SiliconOffice
