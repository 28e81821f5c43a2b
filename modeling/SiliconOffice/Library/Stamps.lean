import Mathlib.Order.Basic

/-!
# Values remembered under a stamp

A value computed from a resource is remembered with a stamp that was read off the resource
beforehand.  The resource may have changed between the two, so the stamp can be older than
the value.  What makes it safe to use the value again under an equal stamp is that a change
either moves the stamp on or leaves right values right.

* `Faithful` — what the pair is worth at a state of the resource;
* `Faithful.advance` — it stays worth that along every change;
* `Faithful.right` — under an equal stamp the value is right.
-/

namespace SiliconOffice
namespace Library

variable {ρ : Type*} {τ : Type*} {ν : Type*} [PartialOrder τ] {stampOf : ρ → τ}
  {Right : ρ → ν → Prop} {before after : ρ} {stamp : τ} {value : ν}

/-- The stamp is no newer than the resource, and if it is the same the value is right. -/
def Faithful (stampOf : ρ → τ) (Right : ρ → ν → Prop) (resource : ρ) (stamp : τ) (value : ν) :
    Prop :=
  stamp ≤ stampOf resource ∧ (stamp = stampOf resource → Right resource value)

/-- The stamp moves on, or it stays and so does what is right. -/
def Advances (stampOf : ρ → τ) (Right : ρ → ν → Prop) (before after : ρ) : Prop :=
  stampOf before < stampOf after ∨
    stampOf before = stampOf after ∧ ∀ value, Right before value → Right after value

theorem Advances.le (h : Advances stampOf Right before after) : stampOf before ≤ stampOf after :=
  h.elim le_of_lt fun hsame => le_of_eq hsame.1

theorem Advances.refl (resource : ρ) : Advances stampOf Right resource resource :=
  .inr ⟨rfl, fun _ h => h⟩

/-- The value was computed after the stamp was read. -/
theorem Faithful.of_right (hstamp : stamp ≤ stampOf before) (h : Right before value) :
    Faithful stampOf Right before stamp value :=
  ⟨hstamp, fun _ => h⟩

theorem Faithful.advance (h : Faithful stampOf Right before stamp value)
    (hchange : Advances stampOf Right before after) :
    Faithful stampOf Right after stamp value := by
  refine ⟨h.1.trans hchange.le, fun hstamp => ?_⟩
  rcases hchange with hlater | ⟨hsame, hright⟩
  · -- the stamp was not newer than the resource, which has moved past it
    exact absurd (h.1.trans_lt hlater) (hstamp ▸ lt_irrefl _)
  · exact hright value (h.2 (hstamp.trans hsame.symm))

theorem Faithful.right (h : Faithful stampOf Right before stamp value)
    (hstamp : stamp = stampOf before) : Right before value :=
  h.2 hstamp

end Library
end SiliconOffice
