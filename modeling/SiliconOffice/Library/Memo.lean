import SiliconOffice.Library.OrderedDict

/-!
# Caches

A dictionary of results, each of them right for its key by construction: `Valid key value`
says what it takes to be.  What a cache holds is then never visible in what is computed with
it, however it came to hold that.
-/

namespace SiliconOffice
namespace Library

variable {κ : Type*} {ν : Type*} [BEq κ] {Valid : κ → ν → Prop}

/-- A cache of valid results. -/
structure Memo (Valid : κ → ν → Prop) where
  entries : OrderedDict κ ν
  valid : ∀ key value, entries.get? key = some value → Valid key value

namespace Memo

/-- Nothing has been computed yet. -/
def empty : Memo Valid where
  entries := .empty
  valid key value h := by
    rw [OrderedDict.get?_empty] at h
    cases h

def get? (memo : Memo Valid) (key : κ) : Option ν :=
  memo.entries.get? key

theorem valid_of_get? {memo : Memo Valid} {key : κ} {value : ν} (h : memo.get? key = some value) :
    Valid key value :=
  memo.valid key value h

variable [EquivBEq κ]

/-- Remember a result that is right for every key that counts as this one. -/
def store (memo : Memo Valid) (key : κ) (value : ν)
    (h : ∀ other, (other == key) = true → Valid other value) : Memo Valid where
  entries := memo.entries.store key value
  valid other found hfound := by
    rw [OrderedDict.get?_store] at hfound
    split at hfound
    · rename_i hsame
      cases hfound
      exact h other hsame
    · exact memo.valid other found hfound

end Memo

end Library
end SiliconOffice
