import SiliconOffice.Daemon.Session
import SiliconOffice.Library.Nesting
import SiliconOffice.Library.Runs

/-!
# Subagents folded into the record of their parent

`SubagentStart` pushes the label on a stack, `SubagentStop` takes it off again, nothing
else touches the stack.  So a subagent's events, other subagents nested in them included,
leave the parent's label and stack as they were (`subagent_restores_label`).

The stack outlives everything but the record itself.  `reach` is how many labels of the
present stack the events to come take off; two histories of a session look the same from a
`SessionStart` on exactly when their stacks agree that far (`sessionStart_forgets_iff`).
-/

namespace SiliconOffice
namespace Daemon

open Library Python Common

/-- The event starts a subagent. -/
def Opens (entry : HookEvent × ℚ) : Prop :=
  HookName.ofJson entry.1.hookEventName = some .subagentStart

/-- The event stops a subagent. -/
def Closes (entry : HookEvent × ℚ) : Prop :=
  HookName.ofJson entry.1.hookEventName = some .subagentStop

/-- Any other event, mapped or not, that does not end the session. -/
def Passes (entry : HookEvent × ℚ) : Prop :=
  HookName.ofJson entry.1.hookEventName ≠ some .subagentStart ∧
    HookName.ofJson entry.1.hookEventName ≠ some .subagentStop ∧
    HookName.ofJson entry.1.hookEventName ≠ some .sessionEnd

variable (repr : Json → Except PyErr String)

/-- The edit of an event that does not end the session. -/
def edit (record : AgentRecord) (entry : HookEvent × ℚ) : AgentRecord :=
  effect repr entry.1 entry.2 (withCwd false entry.1 record)

variable {repr} {event : HookEvent} {now : ℚ} {record : AgentRecord} {entry : HookEvent × ℚ}

/-! ## The stack along one event -/

theorem labelStack_edit_of_opens (h : Opens entry) :
    (edit repr record entry).labelStack = record.labelStack ++ [record.actionLabel] := by
  rw [edit, labelStack_effect,
    show HookName.ofJson entry.1.hookEventName = some .subagentStart from h]
  dsimp only
  rw [withCwd_labelStack, withCwd_actionLabel]

theorem labelStack_edit_of_closes (h : Closes entry) :
    (edit repr record entry).labelStack = record.labelStack.dropLast := by
  rw [edit, labelStack_effect,
    show HookName.ofJson entry.1.hookEventName = some .subagentStop from h]
  dsimp only
  rw [withCwd_labelStack]

theorem actionLabel_edit_of_closes (h : Closes entry) :
    (edit repr record entry).actionLabel = record.labelStack.getLast?.getD "Working" := by
  unfold edit effect
  rw [show HookName.ofJson entry.1.hookEventName = some .subagentStop from h]
  dsimp only
  rw [withCwd_labelStack]

theorem labelStack_edit_of_passes (h : Passes entry) :
    (edit repr record entry).labelStack = record.labelStack := by
  obtain ⟨hstart, hstop, -⟩ := h
  rw [edit, labelStack_effect]
  split
  · rename_i hname
    exact absurd hname hstart
  · rename_i hname
    exact absurd hname hstop
  · exact withCwd_labelStack ..

/-! ## Balanced histories -/

theorem handle_some_of_not_end
    (h : HookName.ofJson entry.1.hookEventName ≠ some .sessionEnd) :
    handle repr (some record) entry.1 entry.2 = some (edit repr record entry) := by
  rw [handle_some, if_neg h, edit]

theorem foldl_handle_some {entries : List (HookEvent × ℚ)}
    (h : ∀ entry ∈ entries, HookName.ofJson entry.1.hookEventName ≠ some .sessionEnd) :
    entries.foldl (fun record entry => handle repr record entry.1 entry.2) (some record) =
      some (entries.foldl (edit repr) record) := by
  induction entries generalizing record with
  | nil => rfl
  | cons entry rest ih =>
      rw [List.foldl_cons, List.foldl_cons,
        handle_some_of_not_end (h entry List.mem_cons_self)]
      exact ih fun other hother => h other (List.mem_cons_of_mem _ hother)

theorem not_end_of_opens (h : Opens entry) :
    HookName.ofJson entry.1.hookEventName ≠ some .sessionEnd := by
  rw [show HookName.ofJson entry.1.hookEventName = some .subagentStart from h]
  decide

theorem not_end_of_closes (h : Closes entry) :
    HookName.ofJson entry.1.hookEventName ≠ some .sessionEnd := by
  rw [show HookName.ofJson entry.1.hookEventName = some .subagentStop from h]
  decide

theorem not_end_of_balanced {entries : List (HookEvent × ℚ)}
    (h : Balanced Opens Closes Passes entries) :
    ∀ entry ∈ entries, HookName.ofJson entry.1.hookEventName ≠ some .sessionEnd := by
  induction h with
  | nil => exact fun _ hmem => absurd hmem List.not_mem_nil
  | letter plain _ ih =>
      intro entry hmem
      rcases List.mem_cons.mp hmem with rfl | hrest
      · exact plain.2.2
      · exact ih entry hrest
  | nested opens _ closes _ ihInside ihRest =>
      intro entry hmem
      rcases List.mem_append.mp hmem with hinner | houter
      · rcases List.mem_cons.mp hinner with rfl | hinner
        · exact not_end_of_opens opens
        · exact ihInside entry hinner
      · rcases List.mem_cons.mp houter with rfl | hrest
        · exact not_end_of_closes closes
        · exact ihRest entry hrest

theorem labelStack_balanced {entries : List (HookEvent × ℚ)}
    (h : Balanced Opens Closes Passes entries) (record : AgentRecord) :
    (entries.foldl (edit repr) record).labelStack = record.labelStack :=
  h.stack_eq (fun record _ hopens => ⟨record.actionLabel, labelStack_edit_of_opens hopens⟩)
    (fun _ _ hcloses => labelStack_edit_of_closes hcloses)
    (fun _ _ hpasses => labelStack_edit_of_passes hpasses) record

/-- **A subagent leaves its parent's label and stack as they were**, whatever happens in
between, as long as the session does not end. -/
theorem subagent_restores_label (repr : Json → Except PyErr String) (record : AgentRecord)
    (start stop : HookEvent × ℚ) (between : List (HookEvent × ℚ)) (hstart : Opens start)
    (hstop : Closes stop) (hbetween : Balanced Opens Closes Passes between) :
    ∃ final,
      (start :: between ++ [stop]).foldl
          (fun record entry => handle repr record entry.1 entry.2) (some record) = some final ∧
        final.actionLabel = record.actionLabel ∧ final.labelStack = record.labelStack := by
  have hword : Balanced Opens Closes Passes (start :: between ++ [stop]) :=
    .nested hstart hbetween hstop .nil
  have hinside := @labelStack_balanced repr between hbetween (edit repr record start)
  rw [labelStack_edit_of_opens hstart] at hinside
  refine ⟨_, foldl_handle_some (not_end_of_balanced hword), ?_, labelStack_balanced hword record⟩
  rw [List.foldl_concat, List.foldl_cons, actionLabel_edit_of_closes hstop, hinside,
    List.getLast?_concat, Option.getD_some]

/-- An event of the session `s1` that carries nothing but its name. -/
def bareEvent (name : String) (now : ℚ) : HookEvent × ℚ :=
  ({ sessionId := .str "s1", hookEventName := .str name }, now)

/-- A record in the middle of a search. -/
def searching : AgentRecord where
  sessionId := .str "s1"
  projectName := .str "proj"
  cwd := .str "/tmp/proj"
  pid := .int 7
  entrypoint := .str "cli"
  state := .working
  actionLabel := "Searching"
  stateSince := 0

/-- A subagent that is asked for something and starts a subagent of its own. -/
theorem subagent_restores_label_nested :
    ∃ final,
      (bareEvent "SubagentStart" 1 :: [bareEvent "PermissionRequest" 2,
          bareEvent "SubagentStart" 3, bareEvent "SubagentStop" 4] ++
        [bareEvent "SubagentStop" 5]).foldl
          (fun record entry => handle (fun _ => .ok "") record entry.1 entry.2)
          (some searching) = some final ∧
        final.actionLabel = searching.actionLabel ∧ final.labelStack = searching.labelStack := by
  have hinner : Balanced Opens Closes Passes
      (bareEvent "SubagentStart" 3 :: [] ++ [bareEvent "SubagentStop" 4]) :=
    .nested (show HookName.ofJson _ = _ by decide) .nil (show HookName.ofJson _ = _ by decide) .nil
  exact subagent_restores_label (fun _ => .ok "") searching (bareEvent "SubagentStart" 1)
    (bareEvent "SubagentStop" 5) _ (show HookName.ofJson _ = _ by decide)
    (show HookName.ofJson _ = _ by decide)
    (.letter ⟨by decide, by decide, by decide⟩ hinner)

/-! ## Two histories -/

/-- What the frontend shows of a record. -/
def activity (record : Option AgentRecord) : Option (AgentState × String × ℚ) :=
  record.map fun object => (object.state, object.actionLabel, object.stateSince)

/-- The labels that the record keeps for its subagents. -/
def stackOf (record : Option AgentRecord) : List String :=
  (record.map (·.labelStack)).getD []

/-- How many labels of the present stack the events take off, before the session ends. -/
def reach : List (HookEvent × ℚ) → Nat
  | [] => 0
  | entry :: rest =>
      match HookName.ofJson entry.1.hookEventName with
      | some .subagentStart => reach rest - 1
      | some .subagentStop => reach rest + 1
      | some .sessionEnd => 0
      | _ => reach rest

theorem reach_of_opens (h : Opens entry) (rest : List (HookEvent × ℚ)) :
    reach (entry :: rest) = reach rest - 1 := by
  rw [reach, show HookName.ofJson entry.1.hookEventName = some .subagentStart from h]

theorem reach_of_closes (h : Closes entry) (rest : List (HookEvent × ℚ)) :
    reach (entry :: rest) = reach rest + 1 := by
  rw [reach, show HookName.ofJson entry.1.hookEventName = some .subagentStop from h]

theorem reach_of_passes (h : Passes entry) (rest : List (HookEvent × ℚ)) :
    reach (entry :: rest) = reach rest := by
  obtain ⟨hstart, hstop, hend⟩ := h
  rw [reach]
  split
  · rename_i hname
    exact absurd hname hstart
  · rename_i hname
    exact absurd hname hstop
  · rename_i hname
    exact absurd hname hend
  · rfl

theorem reach_of_end (h : HookName.ofJson entry.1.hookEventName = some .sessionEnd)
    (rest : List (HookEvent × ℚ)) : reach (entry :: rest) = 0 := by
  rw [reach, h]

theorem activity_eq_iff {first second : AgentRecord} :
    activity (some first) = activity (some second) ↔
      first.state = second.state ∧ first.actionLabel = second.actionLabel ∧
        first.stateSince = second.stateSince := by
  simp [activity]

theorem activity_edit {first second : AgentRecord} (h : ¬ Closes entry)
    (hsame : activity (some first) = activity (some second)) :
    activity (some (edit repr first entry)) = activity (some (edit repr second entry)) := by
  obtain ⟨hstate, hlabel, hsince⟩ := activity_eq_iff.mp hsame
  have hcwd : SameActivity (withCwd false entry.1 second) (withCwd false entry.1 first) := by
    simpa [SameActivity] using ⟨hstate, hlabel, hsince⟩
  exact activity_eq_iff.mpr (sameActivity_effect hcwd h)

/-- The end of a subagent shows the label on top of the stack. -/
theorem activity_edit_of_closes {first second : AgentRecord} (h : Closes entry)
    (hsame : activity (some first) = activity (some second)) :
    activity (some (edit repr first entry)) = activity (some (edit repr second entry)) ↔
      first.labelStack.getLast?.getD "Working" = second.labelStack.getLast?.getD "Working" := by
  obtain ⟨hstate, -, -⟩ := activity_eq_iff.mp hsame
  rw [activity_eq_iff, actionLabel_edit_of_closes h, actionLabel_edit_of_closes h]
  unfold edit effect
  rw [show HookName.ofJson entry.1.hookEventName = some .subagentStop from h]
  dsimp only
  rw [withCwd_state, withCwd_state]
  exact ⟨fun hall => hall.2.1, fun hlabel => ⟨hstate, hlabel, rfl⟩⟩

/-- **Two records that look alike go on looking alike** exactly when their stacks agree as
far as the events reach. -/
theorem activity_along_iff {first second : AgentRecord} (later : List (HookEvent × ℚ))
    (hsame : activity (some first) = activity (some second)) :
    (∀ shared, shared <+: later →
        activity (shared.foldl (fun record entry => handle repr record entry.1 entry.2)
            (some first)) =
          activity (shared.foldl (fun record entry => handle repr record entry.1 entry.2)
            (some second))) ↔
      SameTops "Working" (reach later) first.labelStack second.labelStack := by
  induction later generalizing first second with
  | nil =>
      refine iff_of_true (fun shared hshared => ?_) sameTops_zero
      rw [List.prefix_nil.mp hshared]
      exact hsame
  | cons entry rest ih =>
      rw [forall_prefix_cons (by exact hsame)]
      simp only [List.foldl_cons]
      by_cases hend : HookName.ofJson entry.1.hookEventName = some .sessionEnd
      · rw [handle_some, if_pos hend, handle_some, if_pos hend, reach_of_end hend]
        exact iff_of_true (fun _ _ => rfl) sameTops_zero
      · rw [handle_some_of_not_end hend, handle_some_of_not_end hend]
        by_cases hcloses : Closes entry
        · have hshown := @activity_edit_of_closes repr entry first second hcloses hsame
          have hstack := fun record => @labelStack_edit_of_closes repr record entry hcloses
          rw [reach_of_closes hcloses, sameTops_succ, ← hshown, ← hstack first, ← hstack second]
          constructor
          · intro hall
            have hnow := hall [] List.nil_prefix
            exact ⟨hnow, (ih hnow).mp hall⟩
          · rintro ⟨hnow, htops⟩
            exact (ih hnow).mpr htops
        · rw [ih (activity_edit hcloses hsame)]
          by_cases hopens : Opens entry
          · rw [reach_of_opens hopens, labelStack_edit_of_opens hopens,
              labelStack_edit_of_opens hopens, (activity_eq_iff.mp hsame).2.1, sameTops_push]
          · have hpasses : Passes entry := ⟨hopens, hcloses, hend⟩
            rw [reach_of_passes hpasses, labelStack_edit_of_passes hpasses,
              labelStack_edit_of_passes hpasses]

/-! ## After a start of the session -/

/-- The `cwd` of the event is one that a project can be named after. -/
def NamesProject (event : HookEvent) : Prop :=
  ∃ name, projectNameFromCwd event.cwd = .ok name

/-- A start of the session resets all that is shown, and keeps the stack. -/
theorem handle_sessionStart {before : Option AgentRecord}
    (hstart : HookName.ofJson event.hookEventName = some .sessionStart)
    (hknown : before.isSome = true ∨ NamesProject event) :
    ∃ object, handle repr before event now = some object ∧
      activity (some object) = some (.idle, "Idle", now) ∧
      object.labelStack = stackOf before := by
  cases before with
  | some record =>
      refine ⟨effect repr event now (withCwd false event record), ?_, ?_, ?_⟩
      · rw [handle_some, hstart, if_neg (by decide)]
      · unfold effect
        rw [hstart]
        rfl
      · rw [labelStack_effect, hstart]
        exact withCwd_labelStack ..
  | none =>
      obtain ⟨name, hname⟩ := hknown.resolve_left Bool.false_ne_true
      obtain ⟨fresh, hfresh⟩ := @newRecord_of_projectName event now name hname
      have hraised : ¬ raised ((transition repr true event now).run fresh) = true := by
        rw [raised_transition_iff]
        rintro ⟨exception, hraises⟩
        rw [hstart] at hraises
        exact hraises
      refine ⟨effect repr event now fresh, ?_, ?_, ?_⟩
      · rw [handle_none, hfresh]
        dsimp only
        rw [hstart, if_neg (by decide), if_neg hraised]
      · unfold effect
        rw [hstart]
        rfl
      · obtain ⟨-, -, rfl⟩ := newRecord_eq_ok hfresh
        rw [labelStack_effect, hstart]
        rfl

/-- A session that is not tracked stays so when no project can be named after the `cwd`. -/
theorem handle_none_of_unnamed (h : ¬ NamesProject event) : handle repr none event now = none := by
  rw [handle_none]
  cases hfresh : newRecord event now with
  | error exception => rfl
  | ok fresh =>
      obtain ⟨name, hname, -⟩ := newRecord_eq_ok hfresh
      exact absurd ⟨name, hname⟩ h

/-- A start without a project tells a session that is tracked from one that is not. -/
theorem activity_start_ne (hstart : HookName.ofJson event.hookEventName = some .sessionStart)
    (h : ¬ NamesProject event) :
    activity (handle repr none event now) ≠ activity (handle repr (some record) event now) := by
  obtain ⟨object, hobject, hidle, -⟩ :=
    @handle_sessionStart repr event now (some record) hstart (.inl rfl)
  rw [handle_none_of_unnamed h, hobject, hidle]
  exact nofun

/-- Two sessions that are both known to a start look the same after it exactly when their
stacks agree as far as the later events reach. -/
theorem activity_sessionStart_iff {first second : Option AgentRecord}
    (later : List (HookEvent × ℚ))
    (hstart : HookName.ofJson event.hookEventName = some .sessionStart)
    (hfirst : first.isSome = true ∨ NamesProject event)
    (hsecond : second.isSome = true ∨ NamesProject event) :
    (∀ shared, shared <+: later →
        activity (shared.foldl (fun record entry => handle repr record entry.1 entry.2)
            (handle repr first event now)) =
          activity (shared.foldl (fun record entry => handle repr record entry.1 entry.2)
            (handle repr second event now))) ↔
      SameTops "Working" (reach later) (stackOf first) (stackOf second) := by
  obtain ⟨one, hone, hidle, hstack⟩ := @handle_sessionStart repr event now first hstart hfirst
  obtain ⟨other, hother, hidle', hstack'⟩ :=
    @handle_sessionStart repr event now second hstart hsecond
  rw [← hstack, ← hstack', hone, hother]
  exact activity_along_iff later (hidle.trans hidle'.symm)

/-- **When a start of the session forgets the past.**  Two histories look the same after it
and after every later event exactly when both sessions are known to it, or both are not, and
the labels that the later events take off the two stacks are the same. -/
theorem sessionStart_forgets_iff (repr : Json → Except PyErr String)
    (first second later : List (HookEvent × ℚ)) (start : HookEvent) (now : ℚ)
    (hstart : HookName.ofJson start.hookEventName = some .sessionStart) :
    (∀ shared, shared <+: later →
        activity (recordOf repr (first ++ (start, now) :: shared)) =
          activity (recordOf repr (second ++ (start, now) :: shared))) ↔
      (NamesProject start ∨
          (recordOf repr first).isSome = (recordOf repr second).isSome) ∧
        SameTops "Working" (reach later) (stackOf (recordOf repr first))
          (stackOf (recordOf repr second)) := by
  simp only [recordOf_append, List.foldl_cons]
  by_cases hproject : NamesProject start
  · exact (activity_sessionStart_iff later hstart (.inr hproject) (.inr hproject)).trans
      (iff_and_self.mpr fun _ => .inl hproject)
  · cases hfirst : recordOf repr first with
    | none =>
        cases hsecond : recordOf repr second with
        | none => exact iff_of_true (fun _ _ => rfl) ⟨.inr rfl, fun _ _ => rfl⟩
        | some record =>
            exact iff_of_false
              (fun hall => activity_start_ne hstart hproject (hall [] List.nil_prefix))
              fun h => h.1.elim hproject nofun
    | some record =>
        cases hsecond : recordOf repr second with
        | none =>
            exact iff_of_false
              (fun hall => activity_start_ne hstart hproject (hall [] List.nil_prefix).symm)
              fun h => h.1.elim hproject nofun
        | some other =>
            exact (activity_sessionStart_iff later hstart (.inl rfl) (.inl rfl)).trans
              (iff_and_self.mpr fun _ => .inr rfl)

/-! ### A subagent that is still open -/

/-- A subagent left open before the start shows after it, when another one stops. -/
theorem openSubagent_remembered :
    ¬ ∀ (repr : Json → Except PyErr String) (first second later : List (HookEvent × ℚ)),
      activity (recordOf repr (first ++ bareEvent "SessionStart" 5 :: later)) =
        activity (recordOf repr (second ++ bareEvent "SessionStart" 5 :: later)) := by
  intro hclaim
  have hsame := hclaim (fun _ => .ok "")
    [bareEvent "UserPromptSubmit" 1, bareEvent "SubagentStart" 2] [bareEvent "UserPromptSubmit" 1]
    [bareEvent "SubagentStop" 6]
  exact absurd hsame (by decide)

/-- Histories without open subagents are forgotten. -/
theorem sessionStart_forgets_prompt :
    activity (recordOf (fun _ => .ok "") ([bareEvent "UserPromptSubmit" 1] ++
        bareEvent "SessionStart" 5 :: [bareEvent "SubagentStop" 6])) =
      activity (recordOf (fun _ => .ok "") ([] ++
        bareEvent "SessionStart" 5 :: [bareEvent "SubagentStop" 6])) :=
  (sessionStart_forgets_iff (fun _ => .ok "") [bareEvent "UserPromptSubmit" 1] []
    [bareEvent "SubagentStop" 6] (bareEvent "SessionStart" 5).1 5 (by decide)).mpr
    ⟨.inl ⟨.str "unknown", rfl⟩, fun _ _ => rfl⟩ _ List.prefix_rfl

end Daemon
end SiliconOffice
