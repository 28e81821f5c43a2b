import SiliconOffice.Daemon.Session
import SiliconOffice.Library.Runs

/-!
# States and the labels that go with them

Every branch that assigns a state assigns the label that goes with it, but for two:
`PostToolUse` goes to working and leaves the label, `SubagentStop` restores a label and
leaves the state.  `Agrees` says which labels go with which state; a label goes with one
state only (`Agrees.unique`), so a branch that assigns one of the two keeps them together
exactly when the other one happens to be right already.

`agrees_effect_iff` is one event, `labels_agree_iff` a whole history of a session.
-/

namespace SiliconOffice
namespace Daemon

open Library Python Common

/-- `label.startswith(before)`. -/
def BeginsWith (before label : String) : Prop :=
  before.toList <+: label.toList

instance (before label : String) : Decidable (BeginsWith before label) :=
  inferInstanceAs (Decidable (_ <+: _))

/-- The label is one of those that go with the state. -/
structure Agrees (state : AgentState) (label : String) : Prop where
  idle : state = .idle ↔ label = "Idle"
  asking : state = .asking ↔ BeginsWith "Awaiting approval: " label
  error : state = .error ↔
    BeginsWith "Tool error: " label ∨ label = "Session error (API failure)"

instance (state : AgentState) (label : String) : Decidable (Agrees state label) :=
  decidable_of_iff
    ((state = .idle ↔ label = "Idle") ∧
      (state = .asking ↔ BeginsWith "Awaiting approval: " label) ∧
      (state = .error ↔
        BeginsWith "Tool error: " label ∨ label = "Session error (API failure)"))
    ⟨fun h => ⟨h.1, h.2.1, h.2.2⟩, fun h => ⟨h.idle, h.asking, h.error⟩⟩

/-- The record's state and label agree, if there is a record. -/
def Labelled (record : Option AgentRecord) : Prop :=
  ∀ object ∈ record, Agrees object.state object.actionLabel

variable (repr : Json → Except PyErr String)

/-- The event does not tell the state and the label of a tracked record apart: a branch
that assigns one of them finds the other one right. -/
def KeepsLabel (record : AgentRecord) (event : HookEvent) : Prop :=
  match HookName.ofJson event.hookEventName with
  | some .postToolUse => record.state = .working
  | some .subagentStop => Agrees record.state (record.labelStack.getLast?.getD "Working")
  -- a label that raises leaves the state assigned and the old label
  | some .preToolUse | some .subagentStart => LabelRaises repr event → record.state = .working
  | some .postToolUseFailure => LabelRaises repr event → record.state = .error
  | some .permissionRequest => LabelRaises repr event → record.state = .asking
  | _ => True

/-- The same for a session that may not be tracked: its first event finds an idle record,
unless it cannot even introduce the session. -/
def KeepsLabels (record : Option AgentRecord) (event : HookEvent) : Prop :=
  match record with
  | some object => KeepsLabel repr object event
  | none =>
      (∃ name, projectNameFromCwd event.cwd = .ok name) →
        HookName.ofJson event.hookEventName ≠ some .postToolUse ∧
          HookName.ofJson event.hookEventName ≠ some .subagentStop

variable {repr} {event : HookEvent} {now : ℚ} {record : AgentRecord}

/-! ## Which labels go with which state -/

/-- A label goes with one state only. -/
theorem Agrees.unique {state other : AgentState} {label : String} (h : Agrees state label)
    (h' : Agrees other label) : state = other := by
  have hidle := h.idle.trans h'.idle.symm
  have hasking := h.asking.trans h'.asking.symm
  have herror := h.error.trans h'.error.symm
  cases state <;> cases other <;> simp_all

theorem Agrees.iff_eq {state other : AgentState} {label : String} (h : Agrees state label) :
    Agrees other label ↔ state = other :=
  ⟨h.unique, fun heq => heq ▸ h⟩

theorem head_of_beginsWith {before label : String} {first : Char} {rest : List Char}
    (hbefore : before.toList = first :: rest) (h : BeginsWith before label) :
    label.toList.head? = some first := by
  obtain ⟨tail, htail⟩ := h
  rw [← htail, hbefore]
  rfl

/-- A label whose first letter is none of those of the special labels goes with working. -/
theorem agrees_working_of_head {label : String} {first : Char}
    (hhead : label.toList.head? = some first) (hfirst : first ∉ ['I', 'A', 'T', 'S']) :
    Agrees .working label := by
  have hother : ∀ letter ∈ ['I', 'A', 'T', 'S'], label.toList.head? ≠ some letter := by
    intro letter hletter hsame
    rw [hhead] at hsame
    exact hfirst (Option.some.inj hsame ▸ hletter)
  refine ⟨iff_of_false AgentState.noConfusion ?_, iff_of_false AgentState.noConfusion ?_,
    iff_of_false AgentState.noConfusion ?_⟩
  · rintro rfl
    exact hother 'I' (by decide) rfl
  · exact fun h => hother 'A' (by decide) (head_of_beginsWith rfl h)
  · rintro (h | rfl)
    · exact hother 'T' (by decide) (head_of_beginsWith rfl h)
    · exact hother 'S' (by decide) rfl

theorem head_append {before text : String} {first : Char} {rest : List Char}
    (hbefore : before.toList = first :: rest) :
    (before ++ text).toList.head? = some first := by
  rw [String.toList_append, hbefore]
  rfl

theorem beginsWith_append (before text : String) : BeginsWith before (before ++ text) := by
  unfold BeginsWith
  rw [String.toList_append]
  exact List.prefix_append _ _

theorem agrees_awaiting (text : String) :
    Agrees .asking ("Awaiting approval: " ++ text) := by
  have hhead : ("Awaiting approval: " ++ text).toList.head? = some 'A' := head_append rfl
  refine ⟨iff_of_false AgentState.noConfusion fun h => ?_,
    iff_of_true rfl (beginsWith_append _ _), iff_of_false AgentState.noConfusion ?_⟩
  · rw [h] at hhead
    cases hhead
  · rintro (h | h)
    · rw [head_of_beginsWith rfl h] at hhead
      cases hhead
    · rw [h] at hhead
      cases hhead

theorem agrees_toolError (text : String) : Agrees .error ("Tool error: " ++ text) := by
  have hhead : ("Tool error: " ++ text).toList.head? = some 'T' := head_append rfl
  refine ⟨iff_of_false AgentState.noConfusion fun h => ?_,
    iff_of_false AgentState.noConfusion fun h => ?_, iff_of_true rfl (.inl (beginsWith_append _ _))⟩
  · rw [h] at hhead
    cases hhead
  · rw [head_of_beginsWith rfl h] at hhead
    cases hhead

theorem agrees_toolLabels : ∀ entry ∈ toolLabels, Agrees .working entry.2 := by
  decide

/-- Every label of a tool in use goes with working. -/
theorem agrees_labelForTool {toolName : Json} {label : String}
    (h : labelForTool repr toolName = .ok label) : Agrees .working label := by
  have husing : ∀ text : String, Agrees .working ("Using " ++ text) := fun text =>
    agrees_working_of_head (head_append rfl) (by decide)
  unfold labelForTool at h
  split at h
  · cases hfallback : toolName.format repr with
    | error exception =>
        rw [hfallback] at h
        cases h
    | ok fallback =>
        rw [hfallback] at h
        cases hkey : toolName.hash with
        | error exception =>
            rw [hkey] at h
            cases h
        | ok key =>
            rw [hkey] at h
            cases key with
            | str name =>
                obtain rfl : (toolLabels.lookup name).getD ("Using " ++ fallback) = label :=
                  Except.ok.inj h
                cases hlookup : toolLabels.lookup name with
                | none => exact husing fallback
                | some known =>
                    obtain ⟨entry, hentry, -, rfl⟩ := Assoc.mem_of_lookup hlookup
                    exact agrees_toolLabels entry hentry
            | null => exact Except.ok.inj h ▸ husing fallback
            | bool value => exact Except.ok.inj h ▸ husing fallback
            | int value => exact Except.ok.inj h ▸ husing fallback
            | float value => exact Except.ok.inj h ▸ husing fallback
  · cases h
    decide

/-- What a label built around a value looks like. -/
theorem labelWith_eq_ok {before default tail label : String} {value : Json}
    (h : labelWith repr before value default tail = .ok label) :
    ∃ text, label = before ++ text := by
  unfold labelWith at h
  cases htext : (if value.truthy then value else .str default).format repr with
  | error exception =>
      rw [htext] at h
      cases h
  | ok text =>
      rw [htext] at h
      cases h
      exact ⟨text ++ tail, String.append_assoc ..⟩

/-! ## One event -/

/-- Entering a state with a label of its own keeps the two together; when the label raises
the state has to be the old one. -/
theorem agrees_entered_iff {state : AgentState} {label : Except PyErr String}
    (h : Agrees record.state record.actionLabel)
    (hlabel : ∀ text, label = .ok text → Agrees state text) :
    Agrees (entered state label now record).state (entered state label now record).actionLabel ↔
      ((∃ exception, label = .error exception) → record.state = state) := by
  cases label with
  | ok text =>
      refine iff_of_true (hlabel text rfl) ?_
      rintro ⟨exception, herror⟩
      cases herror
  | error exception =>
      exact h.iff_eq.trans ⟨fun hsame _ => hsame, fun hsame => hsame ⟨exception, rfl⟩⟩

/-- **One event of a tracked session keeps state and label together exactly when it finds
the field that it does not assign right.** -/
theorem agrees_effect_iff (h : Agrees record.state record.actionLabel) :
    Agrees (effect repr event now record).state (effect repr event now record).actionLabel ↔
      KeepsLabel repr record event := by
  have hconstant : ∀ {state : AgentState} {text : String}, Agrees state text →
      (Agrees (entered state (.ok text) now record).state
        (entered state (.ok text) now record).actionLabel ↔ True) :=
    fun hagrees => iff_of_true hagrees trivial
  unfold effect KeepsLabel LabelRaises
  cases HookName.ofJson event.hookEventName with
  | none => exact iff_of_true h trivial
  | some name =>
      cases name with
      | sessionStart => exact hconstant (by decide)
      | userPromptSubmit => exact hconstant (by decide)
      | preToolUse => exact agrees_entered_iff h fun text htext => agrees_labelForTool htext
      | postToolUse =>
          dsimp only
          split
          · rename_i hworking
            exact iff_of_true h hworking
          · exact h.iff_eq
      | postToolUseFailure =>
          refine agrees_entered_iff h fun text htext => ?_
          obtain ⟨tail, rfl⟩ := labelWith_eq_ok htext
          exact agrees_toolError tail
      | permissionRequest =>
          refine agrees_entered_iff h fun text htext => ?_
          obtain ⟨tail, rfl⟩ := labelWith_eq_ok htext
          exact agrees_awaiting tail
      | stop => exact hconstant (by decide)
      | stopFailure => exact hconstant (by decide)
      | subagentStart =>
          refine @agrees_entered_iff now
            { record with labelStack := record.labelStack ++ [record.actionLabel] } .working _
            h fun text htext => ?_
          obtain ⟨tail, rfl⟩ := labelWith_eq_ok htext
          exact agrees_working_of_head (head_append rfl) (by decide)
      | subagentStop => exact Iff.rfl
      | sessionEnd => exact iff_of_true h trivial

/-- What an idle record without subagents keeps. -/
theorem keepsLabel_idle_iff (hraises : ¬ LabelRaises repr event) (hstate : record.state = .idle)
    (hstack : record.labelStack = []) :
    KeepsLabel repr record event ↔
      HookName.ofJson event.hookEventName ≠ some .postToolUse ∧
        HookName.ofJson event.hookEventName ≠ some .subagentStop := by
  unfold KeepsLabel
  rw [hstate, hstack]
  have hdisagrees : ¬ Agrees .idle "Working" := by decide
  cases HookName.ofJson event.hookEventName with
  | none => simp
  | some name => cases name <;> simp [hraises, hdisagrees]

theorem ne_of_labelRaises (h : LabelRaises repr event) :
    HookName.ofJson event.hookEventName ≠ some .postToolUse ∧
      HookName.ofJson event.hookEventName ≠ some .subagentStop := by
  obtain ⟨exception, hraises⟩ := h
  constructor
  · intro hname
    rw [hname] at hraises
    exact hraises
  · intro hname
    rw [hname] at hraises
    exact hraises

/-- The same for a session that may not be tracked. -/
theorem labelled_handle_iff {before : Option AgentRecord} (h : Labelled before) :
    Labelled (handle repr before event now) ↔ KeepsLabels repr before event := by
  have hnone : Labelled none := fun object hobject => by cases hobject
  cases before with
  | some record =>
      have hrecord := h record rfl
      rw [handle_some]
      by_cases hend : HookName.ofJson event.hookEventName = some .sessionEnd
      · rw [if_pos hend]
        refine iff_of_true hnone ?_
        unfold KeepsLabels KeepsLabel
        rw [hend]
        trivial
      · rw [if_neg hend]
        have hagrees : Agrees (withCwd false event record).state
            (withCwd false event record).actionLabel := by
          rw [withCwd_state, withCwd_actionLabel]
          exact hrecord
        have hkeeps : KeepsLabel repr (withCwd false event record) event ↔
            KeepsLabel repr record event := by
          unfold KeepsLabel
          rw [withCwd_state, withCwd_labelStack]
        refine Iff.trans ?_ ((@agrees_effect_iff repr event now _ hagrees).trans hkeeps)
        exact ⟨fun hlabelled => hlabelled _ rfl, fun hlabel object hobject =>
          Option.some.inj hobject ▸ hlabel⟩
  | none =>
      rw [handle_none]
      unfold KeepsLabels
      dsimp only
      cases hnew : newRecord event now with
      | error exception =>
          refine iff_of_true hnone ?_
          rintro ⟨name, hname⟩
          obtain ⟨fresh, hfresh⟩ := @newRecord_of_projectName event now name hname
          rw [hnew] at hfresh
          cases hfresh
      | ok fresh =>
          obtain ⟨name, hname, hfresh⟩ := newRecord_eq_ok hnew
          dsimp only
          have hraised := @raised_transition_iff repr true event now fresh
          by_cases hend : HookName.ofJson event.hookEventName = some .sessionEnd
          · rw [if_pos hend, hend]
            exact iff_of_true hnone fun _ => by decide
          · rw [if_neg hend]
            by_cases hraises : LabelRaises repr event
            · rw [if_pos (hraised.mpr hraises)]
              exact iff_of_true hnone fun _ => ne_of_labelRaises hraises
            · rw [if_neg (mt hraised.mp hraises), forall_prop_of_true ⟨name, hname⟩]
              have hagrees : Agrees fresh.state fresh.actionLabel := by
                rw [hfresh]
                exact (by decide : Agrees .idle "Idle")
              have hstate : fresh.state = .idle := by rw [hfresh]
              have hstack : fresh.labelStack = [] := by rw [hfresh]
              refine Iff.trans ?_ ((@agrees_effect_iff repr event now fresh hagrees).trans
                (keepsLabel_idle_iff hraises hstate hstack))
              exact ⟨fun hlabelled => hlabelled _ rfl, fun hlabel object hobject =>
                Option.some.inj hobject ▸ hlabel⟩

/-- **When state and label agree.**  They do after every event of a session's history
exactly when every event of it finds the field that it does not assign right. -/
theorem labels_agree_iff (repr : Json → Except PyErr String) (events : List (HookEvent × ℚ)) :
    (∀ earlier, earlier <+: events → Labelled (recordOf repr earlier)) ↔
      ∀ earlier entry, earlier ++ [entry] <+: events →
        KeepsLabels repr (recordOf repr earlier) entry.1 :=
  @along_iff (Option AgentRecord) (HookEvent × ℚ) none events
    (fun record entry => handle repr record entry.1 entry.2) Labelled
    (fun record entry => KeepsLabels repr record entry.1)
    (fun _ hobject => by cases hobject) fun _ _ h => labelled_handle_iff h

/-! ### A tool that was approved -/

/-- A tool asks for approval, gets it and runs. -/
def approved : List (HookEvent × ℚ) :=
  [({ sessionId := .str "s1", hookEventName := .str "PermissionRequest",
      toolName := .str "Bash" }, 1),
   ({ sessionId := .str "s1", hookEventName := .str "PostToolUse", toolName := .str "Bash" }, 2)]

/-- The session works again under the label of the approval it waited for, and there was no
subagent in its history. -/
theorem approved_still_awaiting :
    ¬ ∀ (repr : Json → Except PyErr String) (events : List (HookEvent × ℚ)),
      (∀ entry ∈ events,
        HookName.ofJson entry.1.hookEventName ≠ some .subagentStart ∧
          HookName.ofJson entry.1.hookEventName ≠ some .subagentStop) →
      Labelled (recordOf repr events) := by
  intro hclaim
  have hagrees := hclaim (fun _ => .ok "") approved (by decide) _ rfl
  exact absurd hagrees (by decide)

end Daemon
end SiliconOffice
