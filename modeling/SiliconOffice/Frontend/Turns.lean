import SiliconOffice.Frontend.Resend
import SiliconOffice.Frontend.Scene

/-!
# Runs of the render loop

What the loop does to the office can be said without the window: `Feed` is a queue of messages
and the updates made so far.  A turn takes messages off the queue up to the first one that
raises, and ends fade-outs if none did.

* `refines_afterTurns` — the window does just this, but for timers that drawing has dropped;
* `handled_in_order` — no message is lost, handled twice or overtaken;
* `waits_for_raisings` — how long messages can stay on the queue.
-/

namespace SiliconOffice
namespace Frontend

open Library Python

namespace App

/-- The update raises. -/
def raises (app : App) : Update → Bool
  | .message moment message => raised ((handleMessage moment message).run app)
  | .ghosts _ _ => false

/-- How many of the updates raise. -/
def raisings : App → List Update → ℕ
  | _, [] => 0
  | app, update :: rest => (app.raises update).toNat + raisings (perform app update) rest

theorem raisings_append (app : App) (updates later : List Update) :
    app.raisings (updates ++ later) =
      app.raisings updates + (updates.foldl perform app).raisings later := by
  induction updates generalizing app with
  | nil => exact (Nat.zero_add _).symm
  | cons update rest ih =>
      rw [List.cons_append, raisings, ih, raisings, List.foldl_cons, Nat.add_assoc]

/-- The message that an update handles. -/
def Update.message? : Update → Option Json
  | .message _ handled => some handled
  | .ghosts _ _ => none

/-- The messages that are handled, in order. -/
def messages (updates : List Update) : List Json :=
  updates.filterMap Update.message?

theorem messages_append (updates later : List Update) :
    messages (updates ++ later) = messages updates ++ messages later :=
  List.filterMap_append

/-- What comes of a queue in one turn. -/
structure Drained where
  updates : List Update
  /-- What stays on the queue. -/
  left : List Json
  /-- Nothing raised. -/
  quiet : Bool

/-- Handle messages up to the first one that raises. -/
def drain : (ℕ → Moment) → App → List Json → Drained
  | _, _, [] => ⟨[], [], true⟩
  | moments, app, message :: rest =>
      let update := Update.message (moments 0) message
      if app.raises update then ⟨[update], rest, false⟩
      else
        let drained := drain (fun index => moments (index + 1)) (perform app update) rest
        { drained with updates := update :: drained.updates }

variable (moments : ℕ → Moment) (app : App) (queue : List Json)

theorem messages_drain :
    messages (drain moments app queue).updates ++ (drain moments app queue).left = queue := by
  induction queue generalizing moments app with
  | nil => rfl
  | cons message rest ih =>
      unfold drain
      dsimp only
      split
      · rfl
      · exact congrArg (message :: ·) (ih _ _)

/-- One exception at most, and with none the whole queue. -/
theorem raisings_drain :
    app.raisings (drain moments app queue).updates = (!(drain moments app queue).quiet).toNat := by
  induction queue generalizing moments app with
  | nil => rfl
  | cons message rest ih =>
      unfold drain
      dsimp only
      split
      · rename_i hraises
        simp only [raisings, hraises]
        rfl
      · rename_i hraises
        simp only [raisings, ih, eq_false_of_ne_true hraises]
        exact Nat.zero_add _

theorem left_of_quiet (h : (drain moments app queue).quiet = true) :
    (drain moments app queue).left = [] := by
  induction queue generalizing moments app with
  | nil => rfl
  | cons message rest ih =>
      unfold drain at h ⊢
      dsimp only at h ⊢
      split at h
      · cases h
      · rename_i hraises
        rw [if_neg hraises]
        exact ih _ _ h

end App

/-! ## The loop without the window -/

/-- The updates made so far, and the messages that wait. -/
structure Feed where
  updates : List App.Update
  queue : List Json

namespace Feed

/-- The state that the updates lead to. -/
def app (feed : Feed) : App :=
  App.history feed.updates

/-- What a turn takes from the queue. -/
def drained (feed : Feed) (turn : Turn) : App.Drained :=
  App.drain turn.moments feed.app (feed.queue ++ turn.arrivals)

/-- All that a turn does to the state of the office. -/
def turnUpdates (feed : Feed) (turn : Turn) : List App.Update :=
  (feed.drained turn).updates ++
    if (feed.drained turn).quiet then [.ghosts turn.order turn.fadedAt] else []

/-- One turn. -/
def perform (feed : Feed) (turn : Turn) : Feed where
  updates := feed.updates ++ feed.turnUpdates turn
  queue := (feed.drained turn).left

/-- After a run of turns. -/
def afterTurns (turns : List Turn) : Feed :=
  turns.foldl perform ⟨[], []⟩

theorem afterTurns_concat (turns : List Turn) (turn : Turn) :
    afterTurns (turns ++ [turn]) = (afterTurns turns).perform turn :=
  List.foldl_concat ..

theorem app_perform (feed : Feed) (turn : Turn) :
    (feed.perform turn).app = (feed.turnUpdates turn).foldl App.perform feed.app :=
  List.foldl_append

theorem messages_turnUpdates (feed : Feed) (turn : Turn) :
    App.messages (feed.turnUpdates turn) = App.messages (feed.drained turn).updates := by
  unfold turnUpdates
  rw [App.messages_append]
  split
  · exact List.append_nil _
  · exact List.append_nil _

/-- The end of a fade-out never raises. -/
theorem raisings_turnUpdates (feed : Feed) (turn : Turn) :
    feed.app.raisings (feed.turnUpdates turn) = (!(feed.drained turn).quiet).toNat := by
  unfold turnUpdates
  rw [App.raisings_append, drained, App.raisings_drain]
  split <;> rfl

/-- The updates of a run of turns. -/
def updatesOf : Feed → List Turn → List App.Update
  | _, [] => []
  | feed, turn :: rest => feed.turnUpdates turn ++ updatesOf (feed.perform turn) rest

theorem updates_foldl (feed : Feed) (turns : List Turn) :
    (turns.foldl perform feed).updates = feed.updates ++ feed.updatesOf turns := by
  induction turns generalizing feed with
  | nil => exact (List.append_nil _).symm
  | cons turn rest ih =>
      rw [List.foldl_cons, ih]
      exact List.append_assoc ..

theorem afterTurns_append (earlier later : List Turn) :
    afterTurns (earlier ++ later) = later.foldl perform (afterTurns earlier) :=
  List.foldl_append

/-- No message is lost, handled twice or overtaken. -/
theorem messages_foldl (feed : Feed) (turns : List Turn) :
    App.messages (feed.updatesOf turns) ++ (turns.foldl perform feed).queue =
      feed.queue ++ turns.flatMap Turn.arrivals := by
  induction turns generalizing feed with
  | nil => exact (List.append_nil _).symm
  | cons turn rest ih =>
      have hturn : App.messages (feed.turnUpdates turn) ++ (feed.perform turn).queue =
          feed.queue ++ turn.arrivals := by
        rw [messages_turnUpdates]
        exact App.messages_drain ..
      rw [updatesOf, App.messages_append, List.append_assoc, List.foldl_cons, ih,
        ← List.append_assoc, hturn, List.append_assoc]
      rfl

/-- A turn ends with the first message that raises. -/
theorem raisings_le (feed : Feed) (turns : List Turn) :
    feed.app.raisings (feed.updatesOf turns) ≤ turns.length := by
  induction turns generalizing feed with
  | nil => exact Nat.le_refl _
  | cons turn rest ih =>
      rw [updatesOf, App.raisings_append, raisings_turnUpdates, ← app_perform, List.length_cons]
      have hrest := ih (feed.perform turn)
      have hone := Bool.toNat_le (!(feed.drained turn).quiet)
      omega

/-- A message that has to wait for another turn has seen one raise in this one. -/
theorem quiet_of_left (feed : Feed) (turn : Turn) (h : (feed.perform turn).queue ≠ []) :
    (feed.drained turn).quiet = false :=
  eq_false_of_ne_true fun hquiet => h (App.left_of_quiet _ _ _ hquiet)

/-- What waits now has waited all along, while nothing arrives. -/
theorem queue_ne_nil (feed : Feed) (turns : List Turn)
    (harrivals : ∀ turn ∈ turns, turn.arrivals = [])
    (hleft : (turns.foldl perform feed).queue ≠ []) : feed.queue ≠ [] := by
  intro hnil
  have hall := messages_foldl feed turns
  rw [hnil, List.flatMap_eq_nil_iff.mpr harrivals] at hall
  exact hleft (List.append_eq_nil_iff.mp hall).2

/-- While nothing arrives, each turn that leaves something handles a message that raises. -/
theorem raisings_of_left (feed : Feed) (turns : List Turn)
    (harrivals : ∀ turn ∈ turns, turn.arrivals = [])
    (hleft : (turns.foldl perform feed).queue ≠ []) :
    feed.app.raisings (feed.updatesOf turns) = turns.length := by
  induction turns generalizing feed with
  | nil => rfl
  | cons turn rest ih =>
      have hrest : ∀ turn ∈ rest, turn.arrivals = [] :=
        fun turn hturn => harrivals turn (List.mem_cons_of_mem _ hturn)
      have hquiet := quiet_of_left feed turn (queue_ne_nil _ rest hrest hleft)
      rw [updatesOf, App.raisings_append, raisings_turnUpdates, hquiet, ← app_perform,
        ih (feed.perform turn) hrest hleft, List.length_cons]
      exact Nat.add_comm ..

end Feed

/-! ## The window refines it -/

namespace Window

variable {toolkit : Toolkit}

/-- The queue of the window is the queue of the feed, and its state differs in timers only
that were over at one of the times `seen`. -/
structure Refines (seen : List ℚ) (feed : Feed) (window : Window toolkit) : Prop where
  app : App.Sheds seen feed.app window.app
  queue : window.queue = feed.queue

/-- What `_drain_queue` leaves of everything that messages do not touch. -/
structure Aside (before window : Window toolkit) : Prop where
  display : window.display = before.display
  windowSize : window.windowSize = before.windowSize
  running : window.running = before.running

theorem run_drainQueue_cons (moments : ℕ → Moment) (message : Json) (rest : List Json)
    (window : Window toolkit) :
    (drainQueue moments (message :: rest)).run window =
      match (App.handleMessage (moments 0) message).run window.app with
      | .ok _ app =>
          (drainQueue (fun index => moments (index + 1)) rest).run
            { window with queue := rest, app := app }
      | .error exception app => .error exception { window with queue := rest, app := app } := by
  have htaken : (drainQueue moments (message :: rest)).run window =
      (onApp (App.handleMessage (moments 0) message) >>= fun _ =>
        drainQueue (fun index => moments (index + 1)) rest).run { window with queue := rest } := rfl
  rw [htaken, EStateM.run_bind]
  have happ : (onApp (App.handleMessage (moments 0) message)).run { window with queue := rest } =
      onApp (App.handleMessage (moments 0) message) { window with queue := rest } := rfl
  rw [happ]
  unfold onApp
  dsimp only
  cases (App.handleMessage (moments 0) message).run window.app <;> rfl

/-- `_drain_queue` handles messages up to the first one that raises. -/
theorem run_drainQueue {seen : List ℚ} (moments : ℕ → Moment) (queue : List Json)
    {reference : App} {window : Window toolkit} (h : App.Sheds seen reference window.app)
    (hqueue : window.queue = queue) :
    let drained := App.drain moments reference queue
    let result := (drainQueue moments queue).run window
    raised result = !drained.quiet ∧
      App.Sheds seen (drained.updates.foldl App.perform reference) (after result).app ∧
      (after result).queue = drained.left ∧ Aside window (after result) := by
  induction queue generalizing moments reference window with
  | nil => exact ⟨rfl, h, hqueue, rfl, rfl, rfl⟩
  | cons message rest ih =>
      have hstep := App.lockstep_handleMessage (moments 0) message reference window.app h
      cases hrun : (App.handleMessage (moments 0) message).run reference with
      | ok value app =>
          have hraises : reference.raises (.message (moments 0) message) = false :=
            congrArg raised hrun
          have hperform : reference.perform (.message (moments 0) message) = app :=
            congrArg after hrun
          rw [hrun] at hstep
          rw [run_drainQueue_cons, App.drain, if_neg (ne_true_of_eq_false hraises)]
          generalize (App.handleMessage (moments 0) message).run window.app = result at hstep ⊢
          cases hstep with
          | ok value happ =>
              dsimp only
              rw [List.foldl_cons, hperform]
              obtain ⟨hraised, hkept, hleft, haside⟩ :=
                @ih (fun index => moments (index + 1)) app
                  { window with queue := rest, app := _ } happ rfl
              exact ⟨hraised, hkept, hleft, haside.display, haside.windowSize, haside.running⟩
      | error exception app =>
          have hraises : reference.raises (.message (moments 0) message) = true :=
            congrArg raised hrun
          have hperform : reference.perform (.message (moments 0) message) = app :=
            congrArg after hrun
          rw [hrun] at hstep
          rw [run_drainQueue_cons, App.drain, if_pos hraises]
          generalize (App.handleMessage (moments 0) message).run window.app = result at hstep ⊢
          cases hstep with
          | error exception happ =>
              dsimp only
              rw [List.foldl_cons, hperform]
              exact ⟨rfl, happ, rfl, rfl, rfl, rfl⟩

/-! ## One turn -/

/-- The window as the `try` of the turn finds it. -/
def ready (window : Window toolkit) (turn : Turn) : Window toolkit :=
  let window := turn.events.foldl handleEvent window
  { window with queue := window.queue ++ turn.arrivals }

theorem foldl_handleEvent (events : List WindowEvent) (window : Window toolkit) :
    (events.foldl handleEvent window).app = window.app ∧
      (events.foldl handleEvent window).queue = window.queue ∧
      (events.foldl handleEvent window).display = window.display := by
  induction events generalizing window with
  | nil => exact ⟨rfl, rfl, rfl⟩
  | cons event rest ih =>
      obtain ⟨happ, hqueue, hdisplay⟩ := ih (window.handleEvent event)
      cases event <;> exact ⟨happ, hqueue, hdisplay⟩

theorem app_ready (window : Window toolkit) (turn : Turn) :
    (window.ready turn).app = window.app :=
  (foldl_handleEvent turn.events window).1

theorem queue_ready (window : Window toolkit) (turn : Turn) :
    (window.ready turn).queue = window.queue ++ turn.arrivals :=
  congrArg (· ++ turn.arrivals) (foldl_handleEvent turn.events window).2.1

theorem display_ready (window : Window toolkit) (turn : Turn) :
    (window.ready turn).display = window.display :=
  (foldl_handleEvent turn.events window).2.2

/-- A turn that raises ends there; any other one goes on to draw. -/
theorem perform_eq (window : Window toolkit) (turn : Turn) :
    window.perform turn =
      match (drainQueue turn.moments (window.ready turn).queue).run (window.ready turn) with
      | .ok _ handled =>
          after ((draw turn.drawnAt turn.animTick turn.usage).run
            { handled with app := handled.app.updateGhosts turn.order turn.fadedAt })
      | .error _ left => left := by
  have hperform : window.perform turn =
      after ((swallowing () (update turn)).run (window.ready turn)) := rfl
  rw [hperform, after_swallowing]
  unfold update
  rw [EStateM.run_bind, EStateM.run_get]
  dsimp only
  rw [EStateM.run_bind]
  cases (drainQueue turn.moments (window.ready turn).queue).run (window.ready turn) <;> rfl

variable {seen : List ℚ} {feed : Feed} {window : Window toolkit} {turn : Turn}

/-- A turn that nothing interrupts: all messages, the fade-outs, and a frame. -/
theorem perform_of_quiet (h : Refines seen feed window)
    (hquiet : (feed.drained turn).quiet = true) :
    ∃ handled : Window toolkit, App.Sheds seen (feed.perform turn).app handled.app ∧
      handled.queue = (feed.perform turn).queue ∧ Aside (window.ready turn) handled ∧
      window.perform turn =
        after ((draw turn.drawnAt turn.animTick turn.usage).run handled) := by
  have hqueue : (window.ready turn).queue = feed.queue ++ turn.arrivals := by
    rw [queue_ready, h.queue]
  have happ : App.Sheds seen feed.app (window.ready turn).app := by
    rw [app_ready]
    exact h.app
  obtain ⟨hraised, hsheds, hleft, haside⟩ := run_drainQueue turn.moments _ happ hqueue
  have hupdates : (feed.perform turn).app =
      ((feed.drained turn).updates.foldl App.perform feed.app).updateGhosts turn.order
        turn.fadedAt := by
    rw [Feed.app_perform, Feed.turnUpdates, if_pos hquiet, List.foldl_append]
    rfl
  have hdrained : App.drain turn.moments feed.app (feed.queue ++ turn.arrivals) =
    feed.drained turn := rfl
  rw [perform_eq, hqueue]
  cases hrun : (drainQueue turn.moments (feed.queue ++ turn.arrivals)).run (window.ready turn) with
  | error exception left =>
      rw [hrun, hdrained, hquiet] at hraised
      cases hraised
  | ok value handled =>
      rw [hrun] at hsheds hleft haside
      refine ⟨{ handled with app := handled.app.updateGhosts turn.order turn.fadedAt }, ?_, hleft,
        ⟨haside.display, haside.windowSize, haside.running⟩, rfl⟩
      rw [hupdates]
      exact hsheds.updateGhosts turn.order turn.fadedAt

/-- A turn that a message interrupts. -/
theorem perform_of_not_quiet (h : Refines seen feed window)
    (hquiet : (feed.drained turn).quiet = false) :
    App.Sheds seen (feed.perform turn).app (window.perform turn).app ∧
      (window.perform turn).queue = (feed.perform turn).queue ∧
      Aside (window.ready turn) (window.perform turn) := by
  have hqueue : (window.ready turn).queue = feed.queue ++ turn.arrivals := by
    rw [queue_ready, h.queue]
  have happ : App.Sheds seen feed.app (window.ready turn).app := by
    rw [app_ready]
    exact h.app
  obtain ⟨hraised, hsheds, hleft, haside⟩ := run_drainQueue turn.moments _ happ hqueue
  have hupdates : (feed.perform turn).app =
      (feed.drained turn).updates.foldl App.perform feed.app := by
    rw [Feed.app_perform, Feed.turnUpdates, hquiet, if_neg Bool.false_ne_true, List.append_nil]
  have hdrained : App.drain turn.moments feed.app (feed.queue ++ turn.arrivals) =
    feed.drained turn := rfl
  rw [perform_eq, hqueue, hupdates]
  cases hrun : (drainQueue turn.moments (feed.queue ++ turn.arrivals)).run (window.ready turn) with
  | ok value handled =>
      rw [hrun, hdrained, hquiet] at hraised
      cases hraised
  | error exception left =>
      rw [hrun] at hsheds hleft haside
      exact ⟨hsheds, hleft, haside⟩

/-- **One turn of the window is one turn of the feed.** -/
theorem Refines.perform (h : Refines seen feed window) (turn : Turn) :
    Refines (turn.drawnAt :: seen) (feed.perform turn) (window.perform turn) := by
  have hseen : ∀ now ∈ seen, now ∈ turn.drawnAt :: seen :=
    fun now hnow => List.mem_cons_of_mem _ hnow
  cases hquiet : (feed.drained turn).quiet with
  | true =>
      obtain ⟨handled, hsheds, hqueue, -, hperform⟩ := perform_of_quiet h hquiet
      have hdrawn := backstage_draw turn.drawnAt turn.animTick turn.usage handled
      rw [← hperform] at hdrawn
      refine ⟨(hsheds.mono hseen).trans (hdrawn.app.mono ?_), hdrawn.queue.trans hqueue⟩
      exact fun now hnow => List.mem_cons.mpr (.inl (List.mem_singleton.mp hnow))
  | false =>
      obtain ⟨hsheds, hqueue, -⟩ := perform_of_not_quiet h hquiet
      exact ⟨hsheds.mono hseen, hqueue⟩

/-! ## Runs -/

theorem afterTurns_concat (windowSize : Int × Int) (turns : List Turn) (turn : Turn) :
    (afterTurns windowSize (turns ++ [turn]) : Window toolkit) =
      (afterTurns windowSize turns).perform turn :=
  List.foldl_concat ..

/-- When something was drawn. -/
def drawnTimes (turns : List Turn) : List ℚ :=
  (turns.map Turn.drawnAt).reverse

/-- **The render loop refines the feed**, in every run whatever arrives and whatever raises. -/
theorem refines_afterTurns (windowSize : Int × Int) (turns : List Turn) :
    Refines (drawnTimes turns) (Feed.afterTurns turns)
      (afterTurns windowSize turns : Window toolkit) := by
  induction turns using List.reverseRecOn with
  | nil => exact ⟨.refl _, rfl⟩
  | append_singleton earlier turn ih =>
      have hdrawn : drawnTimes (earlier ++ [turn]) = turn.drawnAt :: drawnTimes earlier := by
        simp [drawnTimes]
      rw [hdrawn, afterTurns_concat, Feed.afterTurns_concat]
      exact ih.perform turn

/-- **No message is lost, handled twice or overtaken**, and nothing but the messages that have
been handled and the ends of fade-outs makes the state: in every run of turns, whatever
arrives, whatever handling or drawing raises. -/
theorem handled_in_order (windowSize : Int × Int) (turns : List Turn) :
    let updates := (Feed.afterTurns turns).updates
    let window : Window toolkit := afterTurns windowSize turns
    App.messages updates ++ window.queue = turns.flatMap Turn.arrivals ∧
      App.Sheds (drawnTimes turns) (App.history updates) window.app := by
  have hrefines : Refines _ _ (afterTurns windowSize turns : Window toolkit) :=
    refines_afterTurns windowSize turns
  have hall := Feed.messages_foldl ⟨[], []⟩ turns
  refine ⟨?_, hrefines.app⟩
  rw [hrefines.queue, Feed.afterTurns, Feed.updates_foldl]
  exact hall

/-- **How long messages wait.**  A turn handles one message at most that raises.  When some
messages still wait after turns without arrivals, then each of these turns has handled one: so
malformed messages cost a turn each, and nothing is ever stuck behind them. -/
theorem waits_for_raisings (windowSize : Int × Int) (earlier later : List Turn) :
    let feed := Feed.afterTurns earlier
    let window : Window toolkit := afterTurns windowSize (earlier ++ later)
    feed.app.raisings (feed.updatesOf later) ≤ later.length ∧
      ((∀ turn ∈ later, turn.arrivals = []) → window.queue ≠ [] →
        feed.app.raisings (feed.updatesOf later) = later.length) := by
  have hrefines : Refines _ _ (afterTurns windowSize (earlier ++ later) : Window toolkit) :=
    refines_afterTurns windowSize (earlier ++ later)
  refine ⟨Feed.raisings_le _ later, fun harrivals hleft => ?_⟩
  rw [hrefines.queue, Feed.afterTurns_append] at hleft
  exact Feed.raisings_of_left _ later harrivals hleft

/-! ### Three malformed messages -/

/-- A turn at which all clocks show the same. -/
def turnAt (now : ℚ) (arrivals : List Json) : Turn where
  events := []
  arrivals := arrivals
  moments _ := ⟨.asBuilt, now, fun _ => now⟩
  order := .asBuilt
  fadedAt := now
  drawnAt := now
  animTick := now
  usage := {}

/-- Texts of one size, and no wave. -/
def plainToolkit : Toolkit where
  render font text color :=
    match text with
    | .null => .ok ⟨font, text, color, 8, 8⟩
    | .str content =>
        if Char.ofNat 0 ∈ content.toList then .error .valueError
        else .ok ⟨font, text, color, 8, 8⟩
    | _ => .error .typeError
  textWidth _ _ := 8
  surface size := if size.1 < 0 || size.2 < 0 then .error .valueError else .ok ()
  fill surface color left top width height := surface.fill color left top width height
  sin _ := 0
  oneDecimal _ := "0.0"

/-- One is handled in each turn. -/
theorem waits_for_raisings_malformed :
    (Feed.afterTurns [turnAt 0 [.null, .null, .null]]).app.raisings
      ((Feed.afterTurns [turnAt 0 [.null, .null, .null]]).updatesOf [turnAt 1 []]) = 1 := by
  have hwaits := @waits_for_raisings plainToolkit (640, 480) [turnAt 0 [.null, .null, .null]]
    [turnAt 1 []]
  refine hwaits.2 (fun turn hturn => ?_) fun hnil => ?_
  · rw [List.mem_singleton.mp hturn]
    rfl
  · have hqueue := (@refines_afterTurns plainToolkit (640, 480)
      ([turnAt 0 [.null, .null, .null]] ++ [turnAt 1 []])).queue
    rw [hnil] at hqueue
    cases hqueue

end Window

end Frontend
end SiliconOffice
