import Mathlib.Data.List.Basic

/-!
# Nested words and stacks

A word over an alphabet in which some letters open, some close and some do neither.  A
machine that pushes on every opening letter and pops on every closing one comes out of a
balanced word with the stack it went in with (`Balanced.stack_eq`), whatever else it does.

Stacks are lists that grow at the end.  A pop from an empty stack yields a fallback, so
two stacks of different depth may be impossible to tell apart by the next few pops:
`SameTops` says for how many they cannot, and how a push and a pop change that number.
-/

namespace SiliconOffice
namespace Library

variable {α : Type*} {β : Type*} {σ : Type*}

/-! ## Balanced words -/

/-- Words in which every opening letter is closed and every closing letter was opened. -/
inductive Balanced (opening closing neutral : α → Prop) : List α → Prop
  | nil : Balanced opening closing neutral []
  | letter {a : α} {word : List α} (plain : neutral a)
      (rest : Balanced opening closing neutral word) :
      Balanced opening closing neutral (a :: word)
  | nested {a b : α} {inner word : List α} (opens : opening a)
      (inside : Balanced opening closing neutral inner) (closes : closing b)
      (rest : Balanced opening closing neutral word) :
      Balanced opening closing neutral (a :: inner ++ b :: word)

/-- **A balanced word leaves the stack as it was.** -/
theorem Balanced.stack_eq {opening closing neutral : α → Prop} {word : List α}
    {step : σ → α → σ} {stack : σ → List β} (h : Balanced opening closing neutral word)
    (hpush : ∀ state a, opening a → ∃ top, stack (step state a) = stack state ++ [top])
    (hpop : ∀ state a, closing a → stack (step state a) = (stack state).dropLast)
    (hkeep : ∀ state a, neutral a → stack (step state a) = stack state) (state : σ) :
    stack (word.foldl step state) = stack state := by
  induction h generalizing state with
  | nil => rfl
  | letter plain _ ih => rw [List.foldl_cons, ih, hkeep state _ plain]
  | @nested a b inner word opens _ closes _ ihInside ihRest =>
      obtain ⟨top, htop⟩ := hpush state a opens
      rw [List.foldl_append, List.foldl_cons, List.foldl_cons, ihRest, hpop _ b closes, ihInside,
        htop, List.dropLast_concat]

/-! ## The next few pops -/

/-- What the pop after `index` other pops yields. -/
def topAt (fallback : β) (index : Nat) (stack : List β) : β :=
  (stack.reverse[index]?).getD fallback

/-- The next `count` pops yield the same from both stacks. -/
def SameTops (fallback : β) (count : Nat) (first second : List β) : Prop :=
  ∀ index < count, topAt fallback index first = topAt fallback index second

variable {fallback : β} {count : Nat} {first second stack : List β}

theorem topAt_zero : topAt fallback 0 stack = stack.getLast?.getD fallback := by
  rw [topAt, List.getLast?_eq_head?_reverse, List.head?_eq_getElem?]

theorem topAt_succ (index : Nat) :
    topAt fallback (index + 1) stack = topAt fallback index stack.dropLast := by
  rw [topAt, topAt, ← List.tail_reverse, List.getElem?_tail]

theorem topAt_push_zero (top : β) : topAt fallback 0 (stack ++ [top]) = top := by
  rw [topAt_zero, List.getLast?_concat, Option.getD_some]

theorem topAt_push_succ (top : β) (index : Nat) :
    topAt fallback (index + 1) (stack ++ [top]) = topAt fallback index stack := by
  rw [topAt_succ, List.dropLast_concat]

/-- After the same push one more pop is the same. -/
theorem sameTops_push (top : β) :
    SameTops fallback count (first ++ [top]) (second ++ [top]) ↔
      SameTops fallback (count - 1) first second := by
  constructor
  · intro h index hindex
    have hnext := h (index + 1) (by omega)
    rwa [topAt_push_succ, topAt_push_succ] at hnext
  · intro h index hindex
    cases index with
    | zero => rw [topAt_push_zero, topAt_push_zero]
    | succ index =>
        rw [topAt_push_succ, topAt_push_succ]
        exact h index (by omega)

/-- One pop, and the rest from what it leaves. -/
theorem sameTops_succ :
    SameTops fallback (count + 1) first second ↔
      first.getLast?.getD fallback = second.getLast?.getD fallback ∧
        SameTops fallback count first.dropLast second.dropLast := by
  constructor
  · intro h
    refine ⟨?_, fun index hindex => ?_⟩
    · have htop := h 0 (Nat.succ_pos count)
      rwa [topAt_zero, topAt_zero] at htop
    · have hnext := h (index + 1) (by omega)
      rwa [topAt_succ, topAt_succ] at hnext
  · rintro ⟨htop, hrest⟩ index hindex
    cases index with
    | zero => rwa [topAt_zero, topAt_zero]
    | succ index =>
        rw [topAt_succ, topAt_succ]
        exact hrest index (by omega)

theorem sameTops_zero : SameTops fallback 0 first second :=
  fun _ hindex => absurd hindex (Nat.not_lt_zero _)

end Library
end SiliconOffice
