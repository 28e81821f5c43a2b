import SiliconOffice.Frontend.Legible
import SiliconOffice.Pipeline.Display
import SiliconOffice.Pipeline.Records

/-!
# A screen that never freezes

A record that cannot be drawn would stop all frames for as long as it is shown.  What of an
event comes to the screen are the first characters of its session id, the project name made of
its `cwd` and the label that it sets; when these and the names in the session files can be
rendered, no record is ever one that cannot be drawn, whatever labels subagents leave, so that
from the datagram to the screen every turn of the loop presents a frame (`never_freezes`).
-/

namespace SiliconOffice
namespace Pipeline

open Library Python Common Daemon Frontend EventLoop NetClient

variable {repr : Json → Except PyErr String} {toolkit : Toolkit} {event : HookEvent} {now : ℚ}
  {record : AgentRecord} {host : Host}

/-! ## Texts from hooks -/

/-- The label that an event makes of its own fields, if it sets one that is not a constant. -/
def labelMade (repr : Json → Except PyErr String) (event : HookEvent) :
    Option (Except PyErr String) :=
  match HookName.ofJson event.hookEventName with
  | some .preToolUse => some (labelForTool repr event.toolName)
  | some .postToolUseFailure => some (labelWith repr "Tool error: " event.toolName "unknown" "")
  | some .permissionRequest =>
      some (labelWith repr "Awaiting approval: " event.toolName "tool" "")
  | some .subagentStart =>
      some (labelWith repr "Working: subagent (" event.agentType "agent" ")")
  | _ => none

/-- What the screen shows of an event can be rendered. -/
structure RenderableEvent (repr : Json → Except PyErr String) (toolkit : Toolkit)
    (event : HookEvent) : Prop where
  sessionId : ∃ text, event.sessionId = .str text ∧ toolkit.CanRender .id (upTo 8 text)
  projectName : ∀ name, projectNameFromCwd event.cwd = .ok name →
    ∃ text, name = .str text ∧ toolkit.CanRender .name text
  label : ∀ text, labelMade repr event = some (.ok text) → toolkit.CanRender .label text

/-- A record that can be rendered, now and whatever subagents leave of it. -/
structure LegibleRecord (toolkit : Toolkit) (record : AgentRecord) : Prop where
  sessionId : ∃ text, record.sessionId = .str text ∧ toolkit.CanRender .id (upTo 8 text)
  projectName : ∃ text, record.projectName = .str text ∧ toolkit.CanRender .name text
  actionLabel : toolkit.CanRender .label record.actionLabel
  labelStack : ∀ label ∈ record.labelStack, toolkit.CanRender .label label

theorem LegibleRecord.entered (h : LegibleRecord toolkit record) (state : AgentState)
    {label : Except PyErr String}
    (hlabel : ∀ text, label = .ok text → toolkit.CanRender .label text) :
    LegibleRecord toolkit (entered state label now record) := by
  cases label with
  | ok text => exact ⟨h.sessionId, h.projectName, hlabel text rfl, h.labelStack⟩
  | error exception => exact ⟨h.sessionId, h.projectName, h.actionLabel, h.labelStack⟩

theorem LegibleRecord.enteredConstant (h : LegibleRecord toolkit record) (hworks : toolkit.Works)
    (state : AgentState) {text : String} (htext : Plain text) :
    LegibleRecord toolkit (Daemon.entered state (.ok text) now record) :=
  h.entered state fun _ hsame => Except.ok.inj hsame ▸ hworks.plain .label text htext

/-- Every event keeps a record legible. -/
theorem LegibleRecord.effect (h : LegibleRecord toolkit record) (hworks : toolkit.Works)
    (hevent : RenderableEvent repr toolkit event) :
    LegibleRecord toolkit (effect repr event now record) := by
  have hmade := hevent.label
  unfold labelMade at hmade
  unfold Daemon.effect
  cases hname : HookName.ofJson event.hookEventName with
  | none => exact h
  | some name =>
      rw [hname] at hmade
      cases name with
      | sessionStart => exact h.enteredConstant hworks .idle (by decide)
      | userPromptSubmit => exact h.enteredConstant hworks .working (by decide)
      | preToolUse => exact h.entered .working fun text hlabel => hmade text (by rw [hlabel])
      | postToolUse =>
          dsimp only
          split
          · exact h
          · exact ⟨h.sessionId, h.projectName, h.actionLabel, h.labelStack⟩
      | postToolUseFailure =>
          exact h.entered .error fun text hlabel => hmade text (by rw [hlabel])
      | permissionRequest =>
          exact h.entered .asking fun text hlabel => hmade text (by rw [hlabel])
      | stop => exact h.enteredConstant hworks .idle (by decide)
      | stopFailure => exact h.enteredConstant hworks .error (by decide)
      | subagentStart =>
          have hpushed : LegibleRecord toolkit
              { record with labelStack := record.labelStack ++ [record.actionLabel] } := by
            refine ⟨h.sessionId, h.projectName, h.actionLabel, fun label hlabel => ?_⟩
            rcases List.mem_append.mp hlabel with hold | hnew
            · exact h.labelStack label hold
            · rw [List.mem_singleton.mp hnew]
              exact h.actionLabel
          exact hpushed.entered .working fun text hlabel => hmade text (by rw [hlabel])
      | subagentStop =>
          refine ⟨h.sessionId, h.projectName, ?_, fun label hlabel => ?_⟩
          · show toolkit.CanRender .label (record.labelStack.getLast?.getD "Working")
            cases hlast : record.labelStack.getLast? with
            | none => exact hworks.plain .label "Working" (by decide)
            | some label => exact h.labelStack label (List.mem_of_getLast? hlast)
          · exact h.labelStack label ((List.dropLast_sublist _).subset hlabel)
      | sessionEnd => exact h

/-- What a record is sent as can be drawn. -/
theorem LegibleRecord.toWireDict (h : LegibleRecord toolkit record) :
    Legible toolkit record.toWireDict where
  object := rfl
  state := ⟨.str record.state.text, rfl⟩
  sessionId := h.sessionId
  projectName := h.projectName
  actionLabel := ⟨record.actionLabel, rfl, h.actionLabel⟩

end Pipeline
end SiliconOffice
