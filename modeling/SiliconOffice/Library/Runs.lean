import Mathlib.Data.List.Basic
import Mathlib.Data.List.Induction
import Mathlib.Logic.Relation

/-!
# Guarded runs of a partial step function

A system is a step function `step : σ → α → Option σ`; `none` says that the
action is not enabled.  `Run step guard start actions final` is a run of
enabled actions, each of which meets a guard on the state before it.

* `Run.invariant` — what holds at the start and survives every guarded step
  holds at the end;
* `Run.countP_le` — a measure that steps of one kind decrease, and no step increases, bounds
  how many steps of that kind there are;
* `Run.mono` — a run under a guard is a run under any weaker one;
* `Run.simulates` — the runs of a system are runs of another one that matches its steps;
* `runActions` — the same runs, executed, with the guard checked on the way in
  `run_of_guarded`;
* `final_unique` — a deterministic system comes to rest in one state only;
* `along_iff` — for a total step function: a property holds all along a list of actions
  exactly when every step of it meets the condition under which one step keeps it.
-/

namespace SiliconOffice
namespace Library

variable {σ : Type*} {α : Type*} {step : σ → α → Option σ} {guard : σ → α → Prop}
  {start final : σ} {actions : List α}

/-- `final` is reached from `start` by `actions`, each enabled and within `guard`. -/
inductive Run (step : σ → α → Option σ) (guard : σ → α → Prop) (start : σ) :
    List α → σ → Prop
  | nil : Run step guard start [] start
  | snoc {actions : List α} {before after : σ} {action : α}
      (earlier : Run step guard start actions before) (allowed : guard before action)
      (taken : step before action = some after) :
      Run step guard start (actions ++ [action]) after

/-- An inductive invariant holds at the end of every run. -/
theorem Run.invariant {invariant : σ → Prop} (hrun : Run step guard start actions final)
    (hstart : invariant start)
    (hstep : ∀ before action after, invariant before → guard before action →
      step before action = some after → invariant after) : invariant final := by
  induction hrun with
  | nil => exact hstart
  | snoc _ allowed taken ih => exact hstep _ _ _ ih allowed taken

/-- **What every step of a kind uses up bounds how many of them a run has.** -/
theorem Run.countP_le (hrun : Run step guard start actions final) (invariant : σ → Prop)
    (measure : σ → ℕ) (counted : α → Bool) (hstart : invariant start)
    (hstep : ∀ before action after, invariant before → guard before action →
      step before action = some after →
        invariant after ∧ measure after + (counted action).toNat ≤ measure before) :
    invariant final ∧ measure final + actions.countP counted ≤ measure start := by
  induction hrun with
  | nil => exact ⟨hstart, Nat.le_refl _⟩
  | @snoc actions before after action _ allowed taken ih =>
      obtain ⟨hbefore, hcount⟩ := ih
      obtain ⟨hafter, huses⟩ := hstep before action after hbefore allowed taken
      have hone : [action].countP counted = (counted action).toNat := by
        cases hcounted : counted action <;> simp [hcounted]
      refine ⟨hafter, ?_⟩
      rw [List.countP_append, hone]
      omega

/-- A run under a guard is a run under every weaker guard. -/
theorem Run.mono {weaker : σ → α → Prop} (hrun : Run step guard start actions final)
    (hweaker : ∀ before action, guard before action → weaker before action) :
    Run step weaker start actions final := by
  induction hrun with
  | nil => exact .nil
  | snoc _ allowed taken ih => exact .snoc ih (hweaker _ _ allowed) taken

theorem Run.append {later : List α} {middle : σ} (hrun : Run step guard start actions middle)
    (hlater : Run step guard middle later final) :
    Run step guard start (actions ++ later) final := by
  induction hlater with
  | nil =>
      rw [List.append_nil]
      exact hrun
  | snoc _ allowed taken ih =>
      rw [← List.append_assoc]
      exact .snoc ih allowed taken

/-- **Simulation.**  When each step is matched by some steps of another system, each run is. -/
theorem Run.simulates {τ : Type*} {β : Type*} {step' : τ → β → Option τ} {guard' : τ → β → Prop}
    {start' : τ} {matching : α → List β} (hrun : Run step guard start actions final)
    (related : σ → τ → Prop) (hstart : related start start')
    (hstep : ∀ before action after before', related before before' → guard before action →
      step before action = some after →
        ∃ after', Run step' guard' before' (matching action) after' ∧ related after after') :
    ∃ final', Run step' guard' start' (actions.flatMap matching) final' ∧
      related final final' := by
  induction hrun with
  | nil => exact ⟨start', .nil, hstart⟩
  | @snoc actions before after action _ allowed taken ih =>
      obtain ⟨before', hbefore, hrelated⟩ := ih
      obtain ⟨after', hafter, hrelated'⟩ := hstep before action after before' hrelated allowed taken
      refine ⟨after', ?_, hrelated'⟩
      rw [List.flatMap_append, List.flatMap_singleton]
      exact hbefore.append hafter

/-- Execute a list of actions, stopping at the first one that is not enabled. -/
def runActions (step : σ → α → Option σ) : σ → List α → Option σ
  | state, [] => some state
  | state, action :: rest => (step state action).bind fun next => runActions step next rest

theorem Run.prepend {action : α} {next : σ} (taken : step start action = some next)
    (allowed : guard start action) (hrun : Run step guard next actions final) :
    Run step guard start (action :: actions) final := by
  induction hrun with
  | nil => exact .snoc .nil allowed taken
  | snoc _ allowed' taken' ih => exact .snoc ih allowed' taken'

/-- What can be executed is a run, when its actions are within the guard in any state. -/
theorem run_of_runActions (h : runActions step start actions = some final)
    (hguard : ∀ action ∈ actions, ∀ state, guard state action) :
    Run step guard start actions final := by
  induction actions generalizing start with
  | nil =>
      cases h
      exact .nil
  | cons action rest ih =>
      obtain ⟨next, htaken, hrest⟩ := Option.bind_eq_some_iff.mp h
      exact .prepend htaken (hguard action List.mem_cons_self start)
        (ih hrest fun other hother => hguard other (List.mem_cons_of_mem _ hother))

/-- A run whose guard is checked as it is executed. -/
theorem run_of_guarded {check : σ → α → Bool}
    (h : runActions (fun state action => if check state action then step state action else none)
      start actions = some final) :
    Run step (fun state action => check state action = true) start actions final := by
  induction actions generalizing start with
  | nil =>
      cases h
      exact .nil
  | cons action rest ih =>
      obtain ⟨next, htaken, hrest⟩ := Option.bind_eq_some_iff.mp h
      dsimp only at htaken
      split at htaken
      · rename_i hallowed
        exact .prepend htaken hallowed (ih hrest)
      · cases htaken

/-- From one state a deterministic system comes to rest in one state only. -/
theorem final_unique {advance : σ → Option σ} {final' : σ}
    (h : Relation.ReflTransGen (fun before after => advance before = some after) start final)
    (h' : Relation.ReflTransGen (fun before after => advance before = some after) start final')
    (hrest : advance final = none) (hrest' : advance final' = none) : final = final' := by
  have hunique : Relator.RightUnique fun before after => advance before = some after :=
    fun before after after' htaken htaken' => Option.some.inj (htaken.symm.trans htaken')
  rcases Relation.ReflTransGen.total_of_right_unique hunique h h' with hgoes | hgoes
  · rcases Relation.ReflTransGen.cases_head hgoes with rfl | ⟨next, htaken, -⟩
    · rfl
    · cases hrest.symm.trans htaken
  · rcases Relation.ReflTransGen.cases_head hgoes with rfl | ⟨next, htaken, -⟩
    · rfl
    · cases hrest'.symm.trans htaken

/-- What holds of every prefix of a nonempty list holds of the empty one and of those that
begin with the head. -/
theorem forall_prefix_cons {holds : List α → Prop} {action : α} (hnil : holds []) :
    (∀ earlier, earlier <+: action :: actions → holds earlier) ↔
      ∀ earlier, earlier <+: actions → holds (action :: earlier) := by
  constructor
  · exact fun hall earlier hinitial =>
      hall (action :: earlier) (List.cons_prefix_cons.mpr ⟨rfl, hinitial⟩)
  · intro hall earlier hinitial
    cases earlier with
    | nil => exact hnil
    | cons head rest =>
        obtain ⟨rfl, hrest⟩ := List.cons_prefix_cons.mp hinitial
        exact hall rest hrest

/-- **A property that each step keeps exactly under a condition** holds in every state of a
run exactly when every step of the run meets the condition. -/
theorem along_iff {advance : σ → α → σ} {holds : σ → Prop} {keeps : σ → α → Prop}
    (hstart : holds start)
    (hstep : ∀ state action, holds state →
      (holds (advance state action) ↔ keeps state action)) :
    (∀ earlier, earlier <+: actions → holds (earlier.foldl advance start)) ↔
      ∀ earlier action, earlier ++ [action] <+: actions →
        keeps (earlier.foldl advance start) action := by
  constructor
  · intro hall earlier action hinitial
    have hbefore := hall earlier ((List.prefix_append earlier [action]).trans hinitial)
    refine (hstep _ action hbefore).mp ?_
    have hafter := hall _ hinitial
    rwa [List.foldl_concat] at hafter
  · intro hkeeps earlier
    induction earlier using List.reverseRecOn with
    | nil => exact fun _ => hstart
    | append_singleton before action ih =>
        intro hinitial
        rw [List.foldl_concat]
        exact (hstep _ action (ih ((List.prefix_append before [action]).trans hinitial))).mpr
          (hkeeps before action hinitial)

end Library
end SiliconOffice
