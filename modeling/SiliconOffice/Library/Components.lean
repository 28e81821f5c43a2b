import Mathlib.Data.List.Induction

/-!
# States made of independent components

A total step function whose state is seen through a family of views, each of which goes its
own way: the view after a step is a function of the view before it, and the actions that
do not concern a view leave it alone.

* `Components.view_foldl` — the view of a run is the run of the view;
* `Components.view_filter` — only the actions that concern a view decide it;
* `Components.view_congr` — runs with the same actions for a view show the same;
* `Components.invariant` — what each view keeps holds in every view of a run.
-/

namespace SiliconOffice
namespace Library

variable {σ : Type*} {α : Type*} {κ : Type*} {β : Type*}

/-- Under well-formed actions every view follows a step function of its own. -/
structure Components (step : σ → α → σ) (wellFormed : α → Prop) (view : κ → σ → β)
    (own : κ → β → α → β) (concerns : κ → α → Bool) : Prop where
  follows : ∀ key state action, wellFormed action →
    view key (step state action) = own key (view key state) action
  ignores : ∀ key seen action, concerns key action = false → own key seen action = seen

namespace Components

variable {step : σ → α → σ} {wellFormed : α → Prop} {view : κ → σ → β} {own : κ → β → α → β}
  {concerns : κ → α → Bool} {actions others : List α}

theorem view_foldl (h : Components step wellFormed view own concerns)
    (hactions : ∀ action ∈ actions, wellFormed action) (key : κ) (state : σ) :
    view key (actions.foldl step state) = actions.foldl (own key) (view key state) := by
  induction actions generalizing state with
  | nil => rfl
  | cons action rest ih =>
      rw [List.foldl_cons, List.foldl_cons, ← h.follows key state action
        (hactions action List.mem_cons_self)]
      exact ih (fun other hother => hactions other (List.mem_cons_of_mem _ hother)) _

theorem foldl_filter (h : Components step wellFormed view own concerns) (key : κ) (seen : β) :
    (actions.filter (concerns key)).foldl (own key) seen = actions.foldl (own key) seen := by
  rw [List.foldl_filter]
  congr 1
  funext seen action
  split
  · rfl
  · rename_i hconcerns
    exact (h.ignores key seen action (eq_false_of_ne_true hconcerns)).symm

/-- Dropping the actions that do not concern a view does not change it. -/
theorem view_filter (h : Components step wellFormed view own concerns)
    (hactions : ∀ action ∈ actions, wellFormed action) (key : κ) (state : σ) :
    view key ((actions.filter (concerns key)).foldl step state) =
      view key (actions.foldl step state) := by
  rw [h.view_foldl hactions, h.view_foldl fun action haction =>
    hactions action (List.mem_filter.mp haction).1, h.foldl_filter]

/-- Runs that agree on the actions of a view show the same in it. -/
theorem view_congr (h : Components step wellFormed view own concerns)
    (hactions : ∀ action ∈ actions, wellFormed action)
    (hothers : ∀ action ∈ others, wellFormed action) (key : κ) (state : σ)
    (hsame : actions.filter (concerns key) = others.filter (concerns key)) :
    view key (actions.foldl step state) = view key (others.foldl step state) := by
  rw [← h.view_filter hactions, hsame, h.view_filter hothers]

theorem invariant (h : Components step wellFormed view own concerns) {holds : κ → β → Prop}
    (hstep : ∀ key seen action, wellFormed action → holds key seen →
      holds key (own key seen action))
    (hactions : ∀ action ∈ actions, wellFormed action) {key : κ} {state : σ}
    (hstart : holds key (view key state)) : holds key (view key (actions.foldl step state)) := by
  rw [h.view_foldl hactions]
  generalize view key state = seen at hstart
  induction actions generalizing seen with
  | nil => exact hstart
  | cons action rest ih =>
      exact ih (fun other hother => hactions other (List.mem_cons_of_mem _ hother)) _
        (hstep key seen action (hactions action List.mem_cons_self) hstart)

end Components

end Library
end SiliconOffice
