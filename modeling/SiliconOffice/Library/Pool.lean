import Mathlib.Data.List.Basic
import Mathlib.Data.List.Perm.Basic
import Mathlib.Data.List.Range
import Mathlib.Order.Lattice

/-!
# A pool of numbers that are handed out again

A number that was given back is handed out before one that was never used; it waits at the
end of the queue of free numbers.  The pool only knows the free numbers and the first one
never used, so what it is worth is said against the numbers in use.

* `Pool.Shares` — the numbers in use and the free ones are those ever handed out, each once;
* `Shares.take`, `Shares.giveBack` — both operations keep it;
* `Shares.next_take` — the pool only grows when all its numbers are in use, so that it is as
  large as the most that were ever in use together.
-/

namespace SiliconOffice
namespace Library

/-- The numbers given back, and the first one never handed out. -/
structure Pool where
  free : List ℕ
  next : ℕ

namespace Pool

/-- Nothing was handed out yet. -/
def empty : Pool where
  free := []
  next := 0

/-- The next number to hand out, and what is left. -/
def take (pool : Pool) : ℕ × Pool :=
  match pool.free with
  | number :: rest => (number, { pool with free := rest })
  | [] => (pool.next, { pool with next := pool.next + 1 })

def giveBack (pool : Pool) (number : ℕ) : Pool :=
  { pool with free := pool.free ++ [number] }

/-- The numbers in use and the free ones are the numbers below `next`, each once. -/
def Shares (pool : Pool) (used : List ℕ) : Prop :=
  (used ++ pool.free).Perm (List.range pool.next)

variable {pool : Pool} {used used' : List ℕ} {number : ℕ}

theorem shares_empty : empty.Shares [] := .refl _

theorem Shares.perm (h : pool.Shares used) (hused : used'.Perm used) : pool.Shares used' :=
  (hused.append_right pool.free).trans h

theorem Shares.nodup (h : pool.Shares used) : used.Nodup :=
  (h.nodup_iff.mpr List.nodup_range).sublist (List.sublist_append_left _ _)

theorem Shares.lt (h : pool.Shares used) (hnumber : number ∈ used) : number < pool.next :=
  List.mem_range.mp (h.mem_iff.mp (List.mem_append_left _ hnumber))

theorem Shares.length_le (h : pool.Shares used) : used.length ≤ pool.next := by
  have hlength := h.length_eq
  rw [List.length_append, List.length_range] at hlength
  exact hlength ▸ Nat.le_add_right _ _

theorem Shares.take (h : pool.Shares used) : pool.take.2.Shares (pool.take.1 :: used) := by
  unfold Pool.take Shares at *
  split
  · rename_i number rest hfree
    rw [hfree] at h
    exact List.perm_middle.symm.trans h
  · rename_i hfree
    rw [hfree, List.append_nil] at h
    dsimp only
    rw [hfree, List.append_nil, List.range_succ]
    exact (h.cons _).trans (List.perm_append_singleton _ _).symm

/-- The pool grows when there is no free number, that is when all are in use. -/
theorem Shares.next_take (h : pool.Shares used) :
    pool.take.2.next = max pool.next (used.length + 1) := by
  have hlength := h.length_eq
  rw [List.length_append, List.length_range] at hlength
  unfold Pool.take
  split
  · rename_i number rest hfree
    rw [hfree, List.length_cons] at hlength
    dsimp only
    omega
  · rename_i hfree
    rw [hfree, List.length_nil] at hlength
    dsimp only
    omega

theorem Shares.giveBack (h : pool.Shares (number :: used)) :
    (pool.giveBack number).Shares used := by
  unfold Pool.giveBack Shares at *
  rw [← List.append_assoc]
  exact (List.perm_append_singleton _ _).trans h

end Pool

end Library
end SiliconOffice
