import Mathlib.Data.Option.Basic
import SiliconOffice.Library.OrderedDict

/-!
# Dictionaries related key by key

Two dictionaries with the same keys, whose values under each key are in a relation: what a
copy, a view or an edited version of a dictionary has to do with the original.

* `Related.store`, `Related.discard`, `Related.discardAll` — the same operation on both
  sides keeps them related, whatever was there before;
* `Related.store_right` — editing one value in place on one side;
* `Related.none_iff`, `Related.exists_left` — reading one side off the other.
-/

namespace SiliconOffice
namespace Library

variable {α : Type*} {β : Type*} {γ : Type*} {related : α → β → Prop}

/-! ## Related lookups -/

theorem eq_none_iff_of_rel {a : Option α} {b : Option β} (h : Option.Rel related a b) :
    b = none ↔ a = none := by
  cases h <;> simp

theorem exists_of_rel_some {a : Option α} {value : β} (h : Option.Rel related a (some value)) :
    ∃ source, a = some source ∧ related source value := by
  cases h with
  | some hvalue => exact ⟨_, rfl, hvalue⟩

theorem exists_of_some_rel {value : α} {b : Option β} (h : Option.Rel related (some value) b) :
    ∃ target, b = some target ∧ related value target := by
  cases h with
  | some hvalue => exact ⟨_, rfl, hvalue⟩

theorem rel_refl {same : α → α → Prop} (hrefl : ∀ value, same value value) (a : Option α) :
    Option.Rel same a a := by
  cases a with
  | none => exact .none
  | some value => exact .some (hrefl value)

theorem rel_symm {a : Option α} {b : Option β} (h : Option.Rel related a b) :
    Option.Rel (fun b a => related a b) b a := by
  cases h with
  | none => exact .none
  | some hvalue => exact .some hvalue

theorem rel_mono {weaker : α → β → Prop} (hweaker : ∀ a b, related a b → weaker a b)
    {a : Option α} {b : Option β} (h : Option.Rel related a b) : Option.Rel weaker a b := by
  cases h with
  | none => exact .none
  | some hvalue => exact .some (hweaker _ _ hvalue)

theorem rel_map_right {change : β → β} (hchange : ∀ a b, related a b → related a (change b))
    {a : Option α} {b : Option β} (h : Option.Rel related a b) :
    Option.Rel related a (b.map change) := by
  cases h with
  | none => exact .none
  | some hvalue => exact .some (hchange _ _ hvalue)

theorem rel_trans {first : α → β → Prop} {second : β → γ → Prop} {third : α → γ → Prop}
    (hcompose : ∀ a b c, first a b → second b c → third a c)
    {a : Option α} {b : Option β} {c : Option γ} (hab : Option.Rel first a b)
    (hbc : Option.Rel second b c) : Option.Rel third a c := by
  cases hab with
  | none =>
      cases hbc
      exact .none
  | some hfirst =>
      cases hbc with
      | some hsecond => exact .some (hcompose _ _ _ hfirst hsecond)

/-! ## Related dictionaries -/

namespace OrderedDict

variable {κ : Type*} [BEq κ]

/-- The same keys, with related values. -/
def Related (related : α → β → Prop) (d : OrderedDict κ α) (d' : OrderedDict κ β) : Prop :=
  ∀ key, Option.Rel related (d.get? key) (d'.get? key)

variable {d : OrderedDict κ α} {d' : OrderedDict κ β} {d'' : OrderedDict κ γ}

namespace Related

theorem refl {same : α → α → Prop} (hrefl : ∀ value, same value value) (d : OrderedDict κ α) :
    Related same d d :=
  fun key => rel_refl hrefl (d.get? key)

theorem trans {first : α → β → Prop} {second : β → γ → Prop} {third : α → γ → Prop}
    (hfirst : Related first d d') (hsecond : Related second d' d'')
    (hcompose : ∀ a b c, first a b → second b c → third a c) : Related third d d'' :=
  fun key => rel_trans hcompose (hfirst key) (hsecond key)

theorem symm (h : Related related d d') : Related (fun b a => related a b) d' d :=
  fun key => rel_symm (h key)

theorem mono {weaker : α → β → Prop} (h : Related related d d')
    (hweaker : ∀ a b, related a b → weaker a b) : Related weaker d d' :=
  fun key => rel_mono hweaker (h key)

theorem none_iff (h : Related related d d') (key : κ) : d'.get? key = none ↔ d.get? key = none :=
  eq_none_iff_of_rel (h key)

/-- Every value on the right comes from one on the left. -/
theorem exists_left (h : Related related d d') {key : κ} {value : β}
    (hvalue : d'.get? key = some value) : ∃ source, d.get? key = some source ∧
      related source value :=
  exists_of_rel_some (hvalue ▸ h key)

/-- Every value on the left has one on the right. -/
theorem exists_right (h : Related related d d') {key : κ} {value : α}
    (hvalue : d.get? key = some value) : ∃ target, d'.get? key = some target ∧
      related value target :=
  exists_of_some_rel (hvalue ▸ h key)

variable [EquivBEq κ]

theorem store (h : Related related d d') {value : α} {value' : β} (hvalue : related value value')
    (key : κ) : Related related (d.store key value) (d'.store key value') := by
  intro other
  rw [get?_store, get?_store]
  split
  · exact .some hvalue
  · exact h other

theorem discard (h : Related related d d') (key : κ) :
    Related related (d.discard key) (d'.discard key) := by
  intro other
  rw [get?_discard, get?_discard]
  split
  · exact .none
  · exact h other

/-- Replacing one value by a related one. -/
theorem store_right {same : α → α → Prop} (hrefl : ∀ value, same value value) {key : κ}
    {value value' : α} (hvalue : d.get? key = some value) (hsame : same value value') :
    Related same d (d.store key value') := by
  intro other
  rw [get?_store]
  split
  · rename_i hother
    rw [d.get?_congr hother, hvalue]
    exact .some hsame
  · exact rel_refl hrefl (d.get? other)

end Related

end OrderedDict

end Library
end SiliconOffice
