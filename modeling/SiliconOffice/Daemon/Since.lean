import Mathlib.Data.List.Induction
import SiliconOffice.Daemon.Folding
import SiliconOffice.Daemon.WellTyped

/-!
# The time stamp of the state

`state_since` is assigned in each branch of its own.  An event either stamps the record
with its own time or leaves the stamp and the state (`effect_stamp`); the exception is an
event whose label raises, and `apply_event` does not return from it (`handled_iff`).

`dated_handle` is one event, `stateSince_dates_state` a history at non-decreasing times.
-/

namespace SiliconOffice
namespace Daemon

open Library Python Common

variable (repr : Json → Except PyErr String)

/-- `apply_event` returns. -/
def Handled (before : Option AgentRecord) (entry : HookEvent × ℚ) : Prop :=
  ∃ result, applyEvent repr before entry.1 entry.2 = .ok result

/-- The time stamp of a session's record around one event. -/
structure Dated (before : Option AgentRecord) (entry : HookEvent × ℚ)
    (after : Option AgentRecord) : Prop where
  handled : WellTyped entry.1 → Handled repr before entry
  known : ∀ final ∈ after, final.state.text ∈ ["idle", "working", "asking", "error"]
  bounded : ∀ final ∈ after, final.stateSince ≤ entry.2
  monotone : ∀ record ∈ before, ∀ final ∈ after, record.stateSince ≤ final.stateSince
  stamped : Handled repr before entry → before.map (·.state) ≠ after.map (·.state) →
    ∀ final ∈ after, final.stateSince = entry.2
  working : ∀ record ∈ before, record.state = .working →
    HookName.ofJson entry.1.hookEventName = some .postToolUse →
      after = some { record with
        cwd := if entry.1.cwd.truthy then entry.1.cwd else record.cwd }

variable {repr} {event : HookEvent} {now : ℚ} {record : AgentRecord}
  {before : Option AgentRecord} {entry : HookEvent × ℚ}

/-! ## One event -/

theorem entered_stamp {label : Except PyErr String} (state : AgentState) :
    (entered state label now record).stateSince = now ∨
      (entered state label now record).stateSince = record.stateSince ∧
        ∃ exception, label = .error exception := by
  cases label with
  | ok text => exact .inl rfl
  | error exception => exact .inr ⟨rfl, exception, rfl⟩

/-- **An event stamps the record or leaves the stamp**, and then it leaves the state too
unless its label raises. -/
theorem effect_stamp :
    (effect repr event now record).stateSince = now ∨
      (effect repr event now record).stateSince = record.stateSince ∧
        ((effect repr event now record).state = record.state ∨ LabelRaises repr event) := by
  unfold effect LabelRaises
  cases HookName.ofJson event.hookEventName with
  | none => exact .inr ⟨rfl, .inl rfl⟩
  | some name =>
      cases name with
      | sessionStart => exact .inl rfl
      | userPromptSubmit => exact .inl rfl
      | preToolUse => exact (entered_stamp .working).imp_right fun h => ⟨h.1, .inr h.2⟩
      | postToolUse =>
          dsimp only
          split
          · exact .inr ⟨rfl, .inl rfl⟩
          · exact .inl rfl
      | postToolUseFailure => exact (entered_stamp .error).imp_right fun h => ⟨h.1, .inr h.2⟩
      | permissionRequest => exact (entered_stamp .asking).imp_right fun h => ⟨h.1, .inr h.2⟩
      | stop => exact .inl rfl
      | stopFailure => exact .inl rfl
      | subagentStart => exact (entered_stamp .working).imp_right fun h => ⟨h.1, .inr h.2⟩
      | subagentStop => exact .inl rfl
      | sessionEnd => exact .inr ⟨rfl, .inl rfl⟩

/-- With the record at hand, `apply_event` returns when no label raises. -/
theorem applyEvent_some_returns_iff {record : AgentRecord} :
    (∃ result, applyEvent repr (some record) event now = .ok result) ↔
      ¬ LabelRaises repr event := by
  rw [← @raised_transition_iff repr false event now record]
  unfold applyEvent
  simp only [bind, Except.bind, Option.isNone_some]
  cases (transition repr false event now).run record with
  | ok op object => cases op <;> simp
  | error exception object => simp

theorem applyEvent_none_returns_iff {fresh : AgentRecord}
    (hfresh : newRecord event now = .ok fresh) :
    (∃ result, applyEvent repr none event now = .ok result) ↔ ¬ LabelRaises repr event := by
  rw [← @raised_transition_iff repr true event now fresh]
  unfold applyEvent
  simp only [bind, Except.bind, Option.isNone_none, hfresh]
  cases (transition repr true event now).run fresh with
  | ok op object => cases op <;> simp
  | error exception object => simp

/-- A new session's record must be built first. -/
theorem handled_iff :
    Handled repr before entry ↔
      (before = none → ∃ fresh, newRecord entry.1 entry.2 = .ok fresh) ∧
        ¬ LabelRaises repr entry.1 := by
  unfold Handled
  cases before with
  | some record => exact applyEvent_some_returns_iff.trans (by simp)
  | none =>
      cases hfresh : newRecord entry.1 entry.2 with
      | error exception =>
          refine iff_of_false ?_ (by simp)
          rintro ⟨result, hresult⟩
          unfold applyEvent at hresult
          rw [hfresh] at hresult
          cases hresult
      | ok fresh => exact (applyEvent_none_returns_iff hfresh).trans (by simp)

/-- The record of a new session carries the time of the event that introduced it. -/
theorem stateSince_introduced {final : AgentRecord}
    (h : handle repr none event now = some final) : final.stateSince = now := by
  rw [handle_none] at h
  cases hnew : newRecord event now with
  | error exception =>
      rw [hnew] at h
      cases h
  | ok fresh =>
      rw [hnew] at h
      dsimp only at h
      obtain ⟨name, -, hfresh⟩ := newRecord_eq_ok hnew
      split at h
      · cases h
      · split at h
        · cases h
        · cases h
          rcases @effect_stamp repr event now fresh with hstamp | ⟨hstamp, -⟩
          · exact hstamp
          · rw [hstamp, hfresh]

/-- A tracked record after an event. -/
theorem handle_some_eq_some {final : AgentRecord}
    (h : handle repr (some record) event now = some final) :
    final = effect repr event now (withCwd false event record) := by
  rw [handle_some] at h
  split at h
  · cases h
  · exact (Option.some.inj h).symm

theorem text_mem (state : AgentState) : state.text ∈ ["idle", "working", "asking", "error"] := by
  cases state <;> decide

/-- **One event** at a time that is not before the record's stamp. -/
theorem dated_handle (hbefore : ∀ record ∈ before, record.stateSince ≤ entry.2) :
    Dated repr before entry (handle repr before entry.1 entry.2) := by
  have hhandled : WellTyped entry.1 → Handled repr before entry := fun htyped =>
    handled_iff.mpr ⟨fun _ => newRecord_returns htyped, not_labelRaises htyped⟩
  cases before with
  | none =>
      have hnow : ∀ final ∈ handle repr none entry.1 entry.2, final.stateSince = entry.2 :=
        fun final hfinal => stateSince_introduced hfinal
      exact
        { handled := hhandled
          known := fun final _ => text_mem final.state
          bounded := fun final hfinal => (hnow final hfinal).le
          monotone := fun record hrecord => by cases hrecord
          stamped := fun _ _ final hfinal => hnow final hfinal
          working := fun record hrecord => by cases hrecord }
  | some record =>
      have hstamp := @effect_stamp repr entry.1 entry.2 (withCwd false entry.1 record)
      rw [withCwd_stateSince, withCwd_state] at hstamp
      have hsince : record.stateSince ≤ entry.2 := hbefore record rfl
      constructor
      case handled => exact hhandled
      case known => exact fun final _ => text_mem final.state
      case bounded =>
        intro final hfinal
        rw [handle_some_eq_some hfinal]
        rcases hstamp with hnow | ⟨hold, -⟩
        · exact hnow.le
        · exact hold.le.trans hsince
      case monotone =>
        intro other hother final hfinal
        obtain rfl : record = other := Option.some.inj hother
        rw [handle_some_eq_some hfinal]
        rcases hstamp with hnow | ⟨hold, -⟩
        · exact hsince.trans hnow.ge
        · exact hold.ge
      case stamped =>
        intro hreturns hchanged final hfinal
        rw [show handle repr (some record) entry.1 entry.2 = some final from hfinal] at hchanged
        rw [handle_some_eq_some hfinal] at hchanged ⊢
        rcases hstamp with hnow | ⟨-, hstate | hraises⟩
        · exact hnow
        · exact absurd (congrArg some hstate.symm) hchanged
        · exact absurd hraises (handled_iff.mp hreturns).2
      case working =>
        intro other hother hworking hname
        obtain rfl : record = other := Option.some.inj hother
        rw [handle_some, hname, if_neg (by decide)]
        unfold effect
        rw [hname]
        dsimp only
        rw [withCwd_state, if_pos hworking]
        unfold withCwd
        cases entry.1.cwd.truthy <;> rfl

/-! ## A history -/

/-- The stamp is the time of one of the events. -/
theorem stateSince_le {events : List (HookEvent × ℚ)} {latest : ℚ}
    (hevents : ∀ entry ∈ events, entry.2 ≤ latest) :
    ∀ final ∈ recordOf repr events, final.stateSince ≤ latest := by
  induction events using List.reverseRecOn with
  | nil => exact fun final hfinal => by cases hfinal
  | append_singleton earlier entry ih =>
      have hentry : entry.2 ≤ latest :=
        hevents entry (List.mem_append_right _ (List.mem_singleton.mpr rfl))
      have hearlier := ih fun other hother => hevents other (List.mem_append_left _ hother)
      rw [recordOf_snoc]
      intro final hfinal
      cases hrecord : recordOf repr earlier with
      | none =>
          rw [hrecord] at hfinal
          exact (stateSince_introduced hfinal).le.trans hentry
      | some record =>
          rw [hrecord] at hfinal
          rw [handle_some_eq_some hfinal]
          rcases @effect_stamp repr entry.1 entry.2 (withCwd false entry.1 record) with
            hnow | ⟨hold, -⟩
          · exact hnow.le.trans hentry
          · rw [hold, withCwd_stateSince]
            exact hearlier record hrecord

/-- Later events do not take the stamp back. -/
theorem le_stateSince {earliest : ℚ} {later : List (HookEvent × ℚ)}
    (hbefore : ∀ record ∈ before, earliest ≤ record.stateSince)
    (hlater : ∀ entry ∈ later, earliest ≤ entry.2) :
    ∀ final ∈ later.foldl (fun record entry => handle repr record entry.1 entry.2) before,
      earliest ≤ final.stateSince := by
  induction later generalizing before with
  | nil => exact hbefore
  | cons entry rest ih =>
      refine ih (fun final hfinal => ?_) fun other hother =>
        hlater other (List.mem_cons_of_mem _ hother)
      have hentry := hlater entry List.mem_cons_self
      cases before with
      | none => exact hentry.trans (stateSince_introduced hfinal).ge
      | some record =>
          rw [handle_some_eq_some hfinal]
          rcases @effect_stamp repr entry.1 entry.2 (withCwd false entry.1 record) with
            hnow | ⟨hold, -⟩
          · exact hentry.trans hnow.ge
          · rw [hold, withCwd_stateSince]
            exact hbefore record rfl

/-- **`state_since` dates the state.**  Along events at non-decreasing times each of them
leaves the stamp dated, and no event handled later than the stamp has changed the state. -/
theorem stateSince_dates_state (repr : Json → Except PyErr String)
    (events : List (HookEvent × ℚ))
    (hordered : events.Pairwise fun earlier later => earlier.2 ≤ later.2) :
    (∀ earlier entry, earlier ++ [entry] <+: events →
      Dated repr (recordOf repr earlier) entry (recordOf repr (earlier ++ [entry]))) ∧
    ∀ final ∈ recordOf repr events, ∀ earlier entry later, events = earlier ++ entry :: later →
      Handled repr (recordOf repr earlier) entry → final.stateSince < entry.2 →
        (recordOf repr earlier).map (·.state) =
          (recordOf repr (earlier ++ [entry])).map (·.state) := by
  have hdated : ∀ earlier entry, earlier ++ [entry] <+: events →
      Dated repr (recordOf repr earlier) entry (recordOf repr (earlier ++ [entry])) := by
    intro earlier entry hinitial
    rw [recordOf_snoc]
    refine dated_handle (stateSince_le fun other hother => ?_)
    have hpair := hordered.sublist hinitial.sublist
    exact (List.pairwise_append.mp hpair).2.2 other hother entry (List.mem_singleton.mpr rfl)
  refine ⟨hdated, ?_⟩
  rintro final hfinal earlier entry later rfl hhandled hlate
  by_contra hchanged
  have hinitial : earlier ++ [entry] <+: earlier ++ entry :: later :=
    ⟨later, List.append_assoc ..⟩
  have hstamped := (hdated earlier entry hinitial).stamped hhandled hchanged
  have hlater : ∀ other ∈ later, entry.2 ≤ other.2 :=
    (List.pairwise_cons.mp (List.pairwise_append.mp hordered).2.1).1
  refine absurd hlate (not_lt.mpr ?_)
  refine @le_stateSince repr _ entry.2 later (fun record hrecord => (hstamped record hrecord).ge)
    hlater final ?_
  rw [← recordOf_append, List.append_assoc]
  exact hfinal

/-- A session that ends and comes back. -/
def returning : List (HookEvent × ℚ) :=
  [bareEvent "UserPromptSubmit" 1, bareEvent "PostToolUse" 2, bareEvent "SessionEnd" 3,
    bareEvent "PermissionRequest" 3, bareEvent "Notification" 4]

theorem stateSince_dates_state_returning :
    (∀ earlier entry, earlier ++ [entry] <+: returning →
      Dated (fun _ => .ok "") (recordOf (fun _ => .ok "") earlier) entry
        (recordOf (fun _ => .ok "") (earlier ++ [entry]))) ∧
    ∀ final ∈ recordOf (fun _ => .ok "") returning, ∀ earlier entry later,
      returning = earlier ++ entry :: later →
        Handled (fun _ => .ok "") (recordOf (fun _ => .ok "") earlier) entry →
          final.stateSince < entry.2 →
            (recordOf (fun _ => .ok "") earlier).map (·.state) =
              (recordOf (fun _ => .ok "") (earlier ++ [entry])).map (·.state) :=
  stateSince_dates_state (fun _ => .ok "") returning (by
    unfold returning bareEvent
    decide)

end Daemon
end SiliconOffice
