import SiliconOffice.Frontend.Turns

/-!
# Frames

What a run of the render loop has put on the screen.

* `presented_of_turn` — the frame of a turn is the scene of its state, and if there is none
  the frame before stays;
* `settled_of_wellFormed` — with well-formed messages nothing ever raises, nothing waits and
  the state is consistent.
-/

namespace SiliconOffice
namespace Frontend

open Library Python

/-! ## Messages that never raise -/

namespace App

/-- A message of the form that the daemon sends: sessions with a name that can be a key, and
objects for agents. -/
structure WellFormed (message : Json) : Prop where
  object : message.isObject = true
  carries : CarriesObjects message
  agents : ∀ value, message.get? "agents" = some value → value.isObject = true
  /-- A Python dictionary has each of its keys once. -/
  distinct : ∀ agents, message.get? "agents" = some (.obj agents) → (agents.map Prod.fst).Nodup
  sessionId : ∀ value, message.get? "session_id" = some value → ∃ key, value.hash = .ok key

variable {app : App} {moment : Moment} {message : Json}

theorem returns_upsertAll {agents : List (String × Json)} (happ : AllObjects app)
    (hagents : ∀ item ∈ agents, item.2.isObject = true) :
    raised ((upsertAll moment agents).run app) = false := by
  induction agents generalizing app with
  | nil => rfl
  | cons head rest ih =>
      obtain ⟨sid, agent⟩ := head
      have hagent : agent.isObject = true := hagents (sid, agent) List.mem_cons_self
      obtain ⟨previous, state, hrun⟩ := @run_upsertAgent_upserted moment (.str sid) agent
        (.str sid) app rfl (happ (.str sid)) hagent
      unfold upsertAll
      rw [EStateM.run_bind, hrun]
      exact ih ((preserved_allObjects moment).upsert app _ agent previous state happ hagent)
        fun item hitem => hagents item (List.mem_cons_of_mem _ hitem)

theorem returns_applySnapshot {agents : List (String × Json)} (happ : AllObjects app)
    (hagents : ∀ item ∈ agents, item.2.isObject = true) :
    raised ((applySnapshot moment agents).run app) = false := by
  have hupserted := @returns_upsertAll app moment agents happ hagents
  cases hrun : (upsertAll moment agents).run app with
  | error exception middle =>
      rw [hrun] at hupserted
      cases hupserted
  | ok value middle =>
      obtain ⟨final, hfinal, -⟩ := run_despawnMissing moment agents middle.agents.keys middle
      rw [run_applySnapshot_ok hrun, hfinal]
      rfl

/-- Well-formed messages do not raise. -/
theorem not_raises (happ : AllObjects app) (hmessage : WellFormed message) :
    app.raises (.message moment message) = false := by
  have hagent : ((message.get? "agent").getD (.obj [])).isObject = true := by
    cases hget : message.get? "agent" with
    | none => rfl
    | some agent => exact hmessage.carries.inAgent agent hget
  have hkey : ∃ key, ((message.get? "session_id").getD .null).hash = .ok key := by
    cases hget : message.get? "session_id" with
    | none => exact ⟨.null, rfl⟩
    | some value => exact hmessage.sessionId value hget
  obtain ⟨key, hkey⟩ := hkey
  show raised ((handleMessage moment message).run app) = false
  rw [run_handleMessage hmessage.object]
  dsimp only
  split
  · rfl
  · split
    · cases hagents : message.get? "agents" with
      | none => exact returns_applySnapshot happ fun item hitem => absurd hitem List.not_mem_nil
      | some value =>
          obtain ⟨agents, rfl⟩ := Json.isObject_iff.mp (hmessage.agents value hagents)
          exact returns_applySnapshot happ (hmessage.carries.inAgents agents hagents)
    · split
      · split
        · obtain ⟨previous, state, hrun⟩ := @run_upsertAgent_upserted moment _ _ key app hkey
            (happ key) hagent
          rw [hrun]
          rfl
        · split
          · rw [run_startDespawn hkey]
            rfl
          · rfl
      · rfl

theorem allObjects_perform (happ : AllObjects app) {update : Update}
    (hupdate : ∀ moment message, update = .message moment message → WellFormed message) :
    AllObjects (app.perform update) := by
  cases update with
  | message moment message =>
      exact (preserved_allObjects moment).handleMessage happ (hupdate moment message rfl).carries
  | ghosts order now =>
      intro key value hget
      unfold perform at hget
      rw [agents_updateGhosts] at hget
      exact happ key value hget

theorem raisings_eq_zero (happ : AllObjects app) {updates : List Update}
    (hupdates : ∀ message ∈ messages updates, WellFormed message) :
    app.raisings updates = 0 := by
  induction updates generalizing app with
  | nil => rfl
  | cons update rest ih =>
      have hupdate : ∀ moment message, update = .message moment message → WellFormed message := by
        rintro moment message rfl
        exact hupdates message List.mem_cons_self
      have hrest : ∀ message ∈ messages rest, WellFormed message := by
        intro message hmessage
        apply hupdates
        rw [← List.singleton_append, messages_append]
        exact List.mem_append_right _ hmessage
      have hraises : app.raises update = false := by
        cases update with
        | message moment message => exact not_raises happ (hupdate moment message rfl)
        | ghosts order now => rfl
      rw [raisings, hraises, ih (allObjects_perform happ hupdate) hrest]
      rfl

theorem mem_messages {updates : List Update} (h : .message moment message ∈ updates) :
    message ∈ messages updates :=
  List.mem_filterMap.mpr ⟨_, h, rfl⟩

/-! ## Dropping timers leaves a settled state -/

theorem Sheds.settled {seen : List ℚ} {reference : App} (h : Sheds seen reference app)
    (hsettled : Settled reference) : Settled app := by
  have hspawn : ∀ key, app.spawnStarted.has key = true → reference.spawnStarted.has key = true := by
    intro key hhas
    rcases h.spawnStarted key with hsame | ⟨hnone, -⟩
    · rwa [OrderedDict.has, ← hsame]
    · rw [OrderedDict.has, hnone] at hhas
      cases hhas
  have hasking : ∀ key, app.askingSince.has key = true → reference.askingSince.has key = true := by
    intro key hhas
    rcases h.askingSince key with hsame | ⟨hnone, -⟩
    · rwa [OrderedDict.has, ← hsame]
    · rw [OrderedDict.has, hnone] at hhas
      cases hhas
  obtain ⟨⟨hapart, hseated, hspawning, hasks⟩, hobjects, hlaid⟩ := hsettled
  refine ⟨⟨?_, ?_, ?_, ?_⟩, ?_, ?_⟩
  · rw [h.agents, h.ghosts]
    exact hapart
  · rw [h.agents, h.ghosts, h.layout]
    exact hseated
  · rw [h.agents]
    exact fun key hhas => hspawning key (hspawn key hhas)
  · rw [h.agents]
    exact fun key hhas => hasks key (hasking key hhas)
  · rw [AllObjects, h.agents]
    exact hobjects
  · rw [Laid, h.layout]
    exact hlaid

end App

namespace Window

variable {toolkit : Toolkit}

/-- **A frontend that is sent well-formed messages never falls behind**: after every turn all
that arrived has been handled, without an exception, and the state is settled. -/
theorem settled_of_wellFormed (windowSize : Int × Int) (turns : List Turn)
    (harrivals : ∀ turn ∈ turns, ∀ message ∈ turn.arrivals, App.WellFormed message) :
    let updates := (Feed.afterTurns turns).updates
    let window : Window toolkit := afterTurns windowSize turns
    window.queue = [] ∧ App.messages updates = turns.flatMap Turn.arrivals ∧
      App.initial.raisings updates = 0 ∧ App.Settled window.app := by
  have hrefines : Refines _ _ (afterTurns windowSize turns : Window toolkit) :=
    refines_afterTurns windowSize turns
  have hall : App.messages (Feed.afterTurns turns).updates ++ (Feed.afterTurns turns).queue =
      turns.flatMap Turn.arrivals := by
    rw [Feed.afterTurns, Feed.updates_foldl]
    exact Feed.messages_foldl ⟨[], []⟩ turns
  have hmessages : ∀ message ∈ App.messages (Feed.afterTurns turns).updates,
      App.WellFormed message := by
    intro message hmessage
    have harrived : message ∈ turns.flatMap Turn.arrivals := by
      rw [← hall]
      exact List.mem_append_left _ hmessage
    obtain ⟨turn, hturn, hmem⟩ := List.mem_flatMap.mp harrived
    exact harrivals turn hturn message hmem
  have hinitial : App.AllObjects App.initial := fun key value hget => by cases hget
  have hraisings := App.raisings_eq_zero hinitial hmessages
  have hqueue : (Feed.afterTurns turns).queue = [] := by
    by_contra hleft
    cases turns using List.reverseRecOn with
    | nil => exact hleft rfl
    | append_singleton earlier turn =>
        -- the last turn was interrupted, but nothing has raised
        rw [Feed.afterTurns_concat] at hleft hraisings
        have hquiet := Feed.quiet_of_left _ turn hleft
        have hturn := Feed.raisings_turnUpdates (Feed.afterTurns earlier) turn
        rw [hquiet] at hturn
        have hsum := App.raisings_append App.initial (Feed.afterTurns earlier).updates
          ((Feed.afterTurns earlier).turnUpdates turn)
        have hlast : ((Feed.afterTurns earlier).updates.foldl App.perform App.initial).raisings
            ((Feed.afterTurns earlier).turnUpdates turn) = 1 := hturn
        rw [hlast] at hsum
        have hzero : App.initial.raisings ((Feed.afterTurns earlier).updates ++
            (Feed.afterTurns earlier).turnUpdates turn) = 0 := hraisings
        omega
  have hsettled : App.Settled (Feed.afterTurns turns).app :=
    App.settled_history fun moment message hmem =>
      (hmessages message (App.mem_messages hmem)).carries
  refine ⟨hrefines.queue.trans hqueue, ?_, hraisings, hrefines.app.settled hsettled⟩
  rw [← hall, hqueue, List.append_nil]

/-! ## What is presented -/

/-- The frame of a turn that left the window like this: the scene of its state, unless the turn
was interrupted or a piece of the scene cannot be drawn. -/
def frameOf (feed : Feed) (turn : Turn) (window : Window toolkit) : Option (List ScreenOp) :=
  if (feed.drained turn).quiet then
    (window.app.scene toolkit window.windowSize turn.drawnAt turn.animTick turn.usage).toOption
  else none

variable {seen : List ℚ} {feed : Feed} {window : Window toolkit}

theorem scene_of_frameOf {turn : Turn} {ops : List ScreenOp}
    (h : frameOf feed turn window = some ops) :
    window.app.scene toolkit window.windowSize turn.drawnAt turn.animTick turn.usage = .ok ops := by
  unfold frameOf at h
  split at h
  · cases hscene : window.app.scene toolkit window.windowSize turn.drawnAt turn.animTick
        turn.usage with
    | error exception =>
        rw [hscene] at h
        cases h
    | ok drawn =>
        rw [hscene] at h
        cases h
        rfl
  · cases h

theorem presented_perform (htexts : toolkit.RendersTexts) (h : Refines seen feed window)
    (turn : Turn) :
    (window.perform turn).display.presented =
      (frameOf feed turn (window.perform turn)).or window.display.presented := by
  unfold frameOf
  cases hquiet : (feed.drained turn).quiet with
  | false =>
      obtain ⟨-, -, haside⟩ := perform_of_not_quiet h hquiet
      rw [if_neg Bool.false_ne_true, haside.display, display_ready]
      exact (Option.none_or ..).symm
  | true =>
      obtain ⟨handled, -, -, haside, hperform⟩ := perform_of_quiet h hquiet
      have hnow : turn.drawnAt ∈ [turn.drawnAt] := List.mem_singleton.mpr rfl
      have hseen : ∀ t ∈ [turn.drawnAt], t ≤ turn.drawnAt :=
        fun t ht => (List.mem_singleton.mp ht).le
      have hpresented : handled.display.presented = window.display.presented := by
        rw [haside.display, display_ready]
      obtain ⟨hok, herror⟩ := run_draw htexts hnow hseen (.refl handled.app) turn.animTick
        turn.usage
      have hdrawn := backstage_draw turn.drawnAt turn.animTick turn.usage handled
      rw [← hperform] at hdrawn
      -- the timers that this frame has dropped do not show on it
      rw [if_pos rfl, App.scene_of_sheds hdrawn.app hseen, hdrawn.windowSize, hperform]
      cases hscene : handled.app.scene toolkit handled.windowSize turn.drawnAt turn.animTick
          turn.usage with
      | ok ops =>
          obtain ⟨window', hrun, hstage⟩ := hok ops hscene
          rw [hrun]
          exact hstage.presented
      | error exception =>
          obtain ⟨window', hrun, hstage⟩ := herror exception hscene
          rw [hrun]
          exact hstage.presented.trans hpresented

/-- **What is on the screen** after any run of turns: the scene of the state of the last turn,
drawn from scratch, or else what was there before. -/
theorem presented_of_turn (htexts : toolkit.RendersTexts) (windowSize : Int × Int)
    (turns : List Turn) (turn : Turn) :
    let before : Window toolkit := afterTurns windowSize turns
    let window : Window toolkit := afterTurns windowSize (turns ++ [turn])
    window.display.presented =
      (frameOf (Feed.afterTurns turns) turn window).or before.display.presented := by
  rw [afterTurns_concat]
  exact presented_perform htexts (refines_afterTurns windowSize turns) turn

/-! ### One session -/

/-- What the daemon sends when there is one agent, which asks. -/
def openingSnapshot : Json :=
  .obj
    [("type", .str "snapshot"),
     ("agents", .obj [("s1", .obj [("session_id", .str "s1"), ("state", .str "asking")])])]

theorem wellFormed_openingSnapshot : App.WellFormed openingSnapshot := by
  refine ⟨rfl, ⟨fun agents hagents item hitem => ?_, fun agent hagent => ?_⟩,
    fun value hvalue => ?_, fun agents hagents => ?_, fun value hvalue => ?_⟩
  · cases hagents
    rw [List.mem_singleton.mp hitem]
    rfl
  · cases hagent
  · cases hvalue
    rfl
  · cases hagents
    exact List.nodup_singleton _
  · cases hvalue

theorem rendersTexts_plainToolkit : plainToolkit.RendersTexts := by
  intro font text color surface hrender
  cases text with
  | null => exact .inl rfl
  | str written => exact .inr ⟨written, rfl⟩
  | _ => cases hrender

theorem presented_of_turn_opening :
    let window : Window plainToolkit := afterTurns (640, 480) [turnAt 0 [openingSnapshot]]
    window.display.presented.isSome = true ∧
      window.display.presented =
        (frameOf (Feed.afterTurns []) (turnAt 0 [openingSnapshot]) window).or none :=
  ⟨by decide +kernel,
    presented_of_turn rendersTexts_plainToolkit (640, 480) [] (turnAt 0 [openingSnapshot])⟩

end Window

end Frontend
end SiliconOffice
