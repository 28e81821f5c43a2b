import SiliconOffice.Frontend.Window
import SiliconOffice.Library.Lockstep

/-!
# The timers that `_draw` drops

`_draw` drops an animation timer when it finds it to be over.  `Sheds seen reference app` says
that this is all there is between two states, with `seen` the times at which something was
drawn.  No message ever notices (`lockstep_handleMessage`), and neither does whoever draws
later (`alphaOf_of_sheds`, `boostOf_of_sheds`).
-/

namespace SiliconOffice
namespace Frontend

open Library Python

namespace App

/-- `app` is `reference` without some timers that were over when something was drawn. -/
structure Sheds (seen : List ℚ) (reference app : App) : Prop where
  rest : app =
    { reference with spawnStarted := app.spawnStarted, askingSince := app.askingSince }
  spawnStarted : Lapsed spawnAnimSeconds seen reference.spawnStarted app.spawnStarted
  askingSince : Lapsed askingFlashSeconds seen reference.askingSince app.askingSince

variable {seen : List ℚ} {reference app : App} {moment : Moment} {key : DictKey}

namespace Sheds

theorem refl (app : App) : Sheds seen app app where
  rest := rfl
  spawnStarted := .refl _
  askingSince := .refl _

theorem mono {seen' : List ℚ} (h : Sheds seen reference app)
    (hseen : ∀ now ∈ seen, now ∈ seen') : Sheds seen' reference app where
  rest := h.rest
  spawnStarted := h.spawnStarted.mono hseen
  askingSince := h.askingSince.mono hseen

theorem trans {middle : App} (h : Sheds seen reference middle) (h' : Sheds seen middle app) :
    Sheds seen reference app where
  rest := by rw [h'.rest, h.rest]
  spawnStarted := h.spawnStarted.trans h'.spawnStarted
  askingSince := h.askingSince.trans h'.askingSince

theorem agents (h : Sheds seen reference app) : app.agents = reference.agents := by
  rw [h.rest]

theorem ghosts (h : Sheds seen reference app) : app.ghosts = reference.ghosts := by
  rw [h.rest]

theorem layout (h : Sheds seen reference app) : app.layout = reference.layout := by
  rw [h.rest]

theorem connected (h : Sheds seen reference app) : app.connected = reference.connected := by
  rw [h.rest]

/-! ## What messages come to -/

theorem stored (h : Sheds seen reference app) (moment : Moment) (key : DictKey) (agent : Json) :
    Sheds seen (App.stored moment key agent reference) (App.stored moment key agent app) := by
  obtain ⟨hrest, hspawn, hasking⟩ := h
  generalize app.spawnStarted = spawnStarted, app.askingSince = askingSince at hrest hspawn hasking
  subst hrest
  refine ⟨rfl, ?_, hasking⟩
  show Lapsed _ _ (if _ then _ else _) (if _ then _ else _)
  dsimp only
  split
  · exact hspawn.store key moment.now
  · exact hspawn

theorem upserted (h : Sheds seen reference app) (moment : Moment) (key : DictKey)
    (agent previous state : Json) :
    Sheds seen (App.upserted moment key agent previous state reference)
      (App.upserted moment key agent previous state app) := by
  have hstored := h.stored moment key agent
  obtain ⟨hrest, hspawn, hasking⟩ := h
  generalize app.spawnStarted = spawnStarted, app.askingSince = askingSince at hrest hspawn hasking
  subst hrest
  refine ⟨rfl, hstored.spawnStarted, ?_⟩
  show Lapsed _ _ (if _ then _ else _) (if _ then _ else _)
  dsimp only
  split
  · exact hasking.store key moment.now
  · exact hasking

theorem despawned (h : Sheds seen reference app) (moment : Moment) (key : DictKey) :
    Sheds seen (App.despawned moment key reference) (App.despawned moment key app) := by
  obtain ⟨hrest, hspawn, hasking⟩ := h
  generalize app.spawnStarted = spawnStarted, app.askingSince = askingSince at hrest hspawn hasking
  subst hrest
  unfold App.despawned
  dsimp only
  cases reference.agents.get? key with
  | none => exact ⟨rfl, hspawn, hasking⟩
  | some agent =>
      dsimp only
      split
      · exact ⟨rfl, hspawn, hasking⟩
      · exact ⟨rfl, hspawn.discard key, hasking.discard key⟩

theorem updateGhosts (h : Sheds seen reference app) (order : SetOrder) (now : ℚ) :
    Sheds seen (reference.updateGhosts order now) (app.updateGhosts order now) := by
  obtain ⟨hrest, hspawn, hasking⟩ := h
  generalize app.spawnStarted = spawnStarted, app.askingSince = askingSince at hrest hspawn hasking
  subst hrest
  unfold App.updateGhosts
  dsimp only [finished]
  split <;> exact ⟨rfl, hspawn, hasking⟩

end Sheds

/-! ## Messages do not notice -/

theorem lockstep_upsertAgent (moment : Moment) (sessionId agent : Json) :
    Lockstep (Sheds seen) (upsertAgent moment sessionId agent)
      (upsertAgent moment sessionId agent) := by
  intro reference app h
  cases hkey : sessionId.hash with
  | error exception =>
      unfold upsertAgent
      rw [EStateM.run_bind, EStateM.run_bind, hkey]
      exact .error exception h
  | ok key =>
      have hagents : app.agents.get? key = reference.agents.get? key := by rw [h.agents]
      rw [run_upsertAgent hkey, run_upsertAgent hkey, hagents]
      cases ((reference.agents.get? key).getD (.obj [])).get "state" .null with
      | error exception =>
          refine .error exception ⟨?_, h.spawnStarted, h.askingSince⟩
          rw [h.rest]
      | ok previous =>
          cases agent.get "state" .null with
          | error exception => exact .error exception (h.stored moment key agent)
          | ok state => exact .ok () (h.upserted moment key agent previous state)

theorem lockstep_startDespawn (moment : Moment) (sessionId : Json) :
    Lockstep (Sheds seen) (startDespawn moment sessionId) (startDespawn moment sessionId) := by
  intro reference app h
  cases hkey : sessionId.hash with
  | error exception =>
      unfold startDespawn
      rw [EStateM.run_bind, EStateM.run_bind, EStateM.run_get, EStateM.run_get, hkey]
      dsimp only
      rw [h.agents]
      split
      · exact .ok () h
      · exact .error exception h
  | ok key =>
      rw [run_startDespawn hkey, run_startDespawn hkey]
      exact .ok () (h.despawned moment key)

theorem lockstep_upsertAll (moment : Moment) (agents : List (String × Json)) :
    Lockstep (Sheds seen) (upsertAll moment agents) (upsertAll moment agents) := by
  induction agents with
  | nil => exact lockstep_pure ()
  | cons head rest ih => exact (lockstep_upsertAgent moment (.str head.1) head.2).bind fun _ => ih

theorem lockstep_despawnMissing (moment : Moment) (agents : List (String × Json))
    (sids : List DictKey) :
    Lockstep (Sheds seen) (despawnMissing moment agents sids)
      (despawnMissing moment agents sids) := by
  induction sids with
  | nil => exact lockstep_pure ()
  | cons sid rest ih =>
      unfold despawnMissing
      split
      · exact (lockstep_startDespawn moment sid.toJson).bind fun _ => ih
      · exact ih

theorem lockstep_applySnapshot (moment : Moment) (agents : List (String × Json)) :
    Lockstep (Sheds seen) (applySnapshot moment agents) (applySnapshot moment agents) := by
  refine (lockstep_upsertAll moment agents).bind fun _ => lockstep_get_bind ?_
  intro reference app h
  rw [h.agents]
  exact lockstep_despawnMissing moment agents _ _ _ h

/-- **No message notices the timers that were dropped**, malformed messages included. -/
theorem lockstep_handleMessage (moment : Moment) (message : Json) :
    Lockstep (Sheds seen) (handleMessage moment message) (handleMessage moment message) := by
  intro reference app h
  cases hobject : message.isObject with
  | false =>
      unfold handleMessage
      rw [EStateM.run_bind, EStateM.run_bind, Json.get_of_not_isObject hobject]
      exact .error _ h
  | true =>
      rw [run_handleMessage hobject, run_handleMessage hobject]
      dsimp only
      split
      · refine .ok () ⟨?_, h.spawnStarted, h.askingSince⟩
        rw [h.rest]
      · split
        · cases (message.get? "agents").getD (.obj []) with
          | obj agents => exact lockstep_applySnapshot moment agents _ _ h
          | _ => exact .error _ h
        · split
          · split
            · exact lockstep_upsertAgent _ _ _ _ _ h
            · split
              · exact lockstep_startDespawn _ _ _ _ h
              · exact .ok () h
          · exact .ok () h

/-! ## Later frames do not notice -/

/-- How far an agent has faded in. -/
def alphaOf (app : App) (now : ℚ) (sid : DictKey) : ℚ :=
  (app.spawnStarted.get? sid).elim 1 fun started => progress spawnAnimSeconds started now

/-- How much is left of the flash of an agent that has begun to ask. -/
def boostOf (app : App) (now : ℚ) (sid : DictKey) (agent : Json) : ℚ :=
  if ((agent.get? "state").getD .null).isText stateAsking then
    (app.askingSince.get? sid).elim 0 fun since => max 0 (1 - (now - since) / askingFlashSeconds)
  else 0

theorem alphaOf_of_sheds {now : ℚ} (h : Sheds seen reference app) (hseen : ∀ t ∈ seen, t ≤ now)
    (sid : DictKey) : app.alphaOf now sid = reference.alphaOf now sid := by
  refine h.spawnStarted.elim_eq (fun started time htime hover => ?_) sid
  apply progress_of_over (by decide +kernel)
  exact hover.trans (sub_le_sub_right (hseen time htime) started)

theorem boostOf_of_sheds {now : ℚ} (h : Sheds seen reference app) (hseen : ∀ t ∈ seen, t ≤ now)
    (sid : DictKey) (agent : Json) :
    app.boostOf now sid agent = reference.boostOf now sid agent := by
  unfold boostOf
  split
  · refine h.askingSince.elim_eq (fun since time htime hover => ?_) sid
    have hlong : askingFlashSeconds ≤ now - since :=
      hover.trans (sub_le_sub_right (hseen time htime) since)
    apply max_eq_left
    rw [sub_nonpos, askingFlashSeconds, div_one]
    exact hlong
  · rfl

/-! ## Drawing reads the timers and drops them -/

/-- `run_spawnAlpha`: the fade-in that is read is the one there was. -/
theorem run_spawnAlpha {now : ℚ} (h : Sheds seen reference app) (hnow : now ∈ seen)
    (hseen : ∀ t ∈ seen, t ≤ now) (sid : DictKey) :
    ∃ app', (spawnAlpha now sid).run app = .ok (reference.alphaOf now sid) app' ∧
      Sheds seen reference app' := by
  rw [← alphaOf_of_sheds h hseen sid]
  unfold spawnAlpha alphaOf
  rw [EStateM.run_bind, EStateM.run_get]
  dsimp only
  cases hget : app.spawnStarted.get? sid with
  | none => exact ⟨app, rfl, h⟩
  | some started =>
      dsimp only [Option.elim]
      split
      · exact ⟨app, rfl, h⟩
      · rename_i hover
        rw [progress_of_over (by decide +kernel) (not_lt.mp hover)]
        refine ⟨_, rfl, ?_, h.spawnStarted.drop hget hnow (not_lt.mp hover), h.askingSince⟩
        rw [h.rest]

/-- The flash, of an agent whose state can be read. -/
theorem run_askingBoost {now : ℚ} (h : Sheds seen reference app) (hnow : now ∈ seen)
    (hseen : ∀ t ∈ seen, t ≤ now) (sid : DictKey) {agent : Json}
    (hagent : agent.isObject = true) :
    ∃ app', (askingBoost now sid agent).run app = .ok (reference.boostOf now sid agent) app' ∧
      Sheds seen reference app' := by
  rw [← boostOf_of_sheds h hseen sid]
  unfold askingBoost boostOf
  rw [EStateM.run_bind, EStateM.run_get]
  dsimp only
  cases hget : app.askingSince.get? sid with
  | none =>
      refine ⟨app, ?_, h⟩
      dsimp only [Option.elim]
      rw [ite_self]
      rfl
  | some since =>
      dsimp only [Option.elim]
      rw [Json.get_of_isObject hagent, EStateM.run_bind, run_raising_ok]
      dsimp only
      split
      · split
        · rename_i hflashing
          refine ⟨app, ?_, h⟩
          rw [max_eq_right]
          · rfl
          · rw [askingFlashSeconds, div_one] at *
            exact sub_nonneg.mpr hflashing.le
        · rename_i hover
          rw [max_eq_left]
          · refine ⟨_, rfl, ?_, h.spawnStarted, h.askingSince.drop hget hnow (not_lt.mp hover)⟩
            rw [h.rest]
          · rw [sub_nonpos, askingFlashSeconds, div_one]
            exact not_lt.mp hover
      · exact ⟨app, rfl, h⟩

/-- An agent whose state cannot be read stops the reading of its flash, or has none. -/
theorem run_askingBoost_of_not_isObject (app : App) (now : ℚ) (sid : DictKey) {agent : Json}
    (hagent : agent.isObject = false) :
    (askingBoost now sid agent).run app = .ok 0 app ∨
      (askingBoost now sid agent).run app = .error .attributeError app := by
  unfold askingBoost
  rw [EStateM.run_bind, EStateM.run_get]
  dsimp only
  cases app.askingSince.get? sid with
  | none => exact .inl rfl
  | some since =>
      dsimp only
      rw [Json.get_of_not_isObject hagent]
      exact .inr rfl

end App

end Frontend
end SiliconOffice
