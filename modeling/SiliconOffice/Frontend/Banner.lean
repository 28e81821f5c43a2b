import SiliconOffice.Frontend.ClientThread
import SiliconOffice.Frontend.Frames

/-!
# The connection banner

The client thread tells the render loop about its connection through the queue, between the
messages of the daemon.  `heard` is what a queue of messages has to say about it; handling
them makes `connected` just that (`connected_foldl`), and the thread keeps it true
(`heard_of_run`).  `banner_tells` joins the two: a frame has the banner exactly when there is no
connection, once all that the thread has put on the queue is handled.
-/

namespace SiliconOffice
namespace Frontend

open Library Python Common

/-! ## What messages say of the connection -/

/-- A `_conn_status` message. -/
def isConnStatus (message : Json) : Bool :=
  ((message.get? "type").getD .null).isText "_conn_status"

/-- What is known of the connection after a message. -/
def hears (connected : Bool) (message : Json) : Bool :=
  if isConnStatus message then ((message.get? "connected").getD .null).truthy else connected

/-- What a queue of messages has to say of the connection. -/
def heard (messages : List Json) : Bool :=
  messages.foldl hears false

theorem heard_append_of_silent {messages later : List Json}
    (h : ∀ message ∈ later, isConnStatus message = false) :
    heard (messages ++ later) = heard messages := by
  have hfold : ∀ connected, later.foldl hears connected = connected := by
    intro connected
    induction later with
    | nil => rfl
    | cons message rest ih =>
        have hsame : hears connected message = connected := by
          unfold hears
          rw [h message List.mem_cons_self, if_neg Bool.false_ne_true]
        rw [List.foldl_cons, hsame]
        exact ih fun other hother => h other (List.mem_cons_of_mem _ hother)
  rw [heard, List.foldl_append]
  exact hfold _

theorem heard_connStatus (messages : List Json) (connected : Bool) :
    heard (messages ++ [NetClient.connStatus connected]) = connected := by
  rw [heard, List.foldl_concat]
  rfl

namespace App

variable {app : App} {moment : Moment}

section methods

/-- The method has no say in whether the frontend is connected. -/
def LeavesConnection (method : EStateM PyErr App Unit) : Prop :=
  ∀ app, (after (method.run app)).connected = app.connected

theorem LeavesConnection.bind {method next : EStateM PyErr App Unit}
    (hmethod : LeavesConnection method) (hnext : LeavesConnection next) :
    LeavesConnection (do method; next) := by
  intro app
  have hboth := @after_bind App Unit Unit (fun left => left.connected = app.connected) method
    (fun _ => next) app (hmethod app)
  exact hboth fun _ middle hmiddle => (hnext middle).trans hmiddle

theorem leavesConnection_pure : LeavesConnection (pure ()) :=
  fun _ => rfl

theorem leavesConnection_upsertAgent (sessionId agent : Json) :
    LeavesConnection (upsertAgent moment sessionId agent) := by
  intro app
  cases hkey : sessionId.hash with
  | error exception =>
      unfold upsertAgent
      rw [EStateM.run_bind, hkey]
      rfl
  | ok key =>
      rw [run_upsertAgent hkey]
      cases ((app.agents.get? key).getD (.obj [])).get "state" .null with
      | error exception => rfl
      | ok previous => cases agent.get "state" .null <;> rfl

theorem connected_despawned (key : DictKey) (app : App) :
    (despawned moment key app).connected = app.connected := by
  unfold despawned
  split
  · rfl
  · dsimp only
    split <;> rfl

theorem leavesConnection_startDespawn (sessionId : Json) :
    LeavesConnection (startDespawn moment sessionId) := by
  intro app
  cases hkey : sessionId.hash with
  | error exception =>
      unfold startDespawn
      rw [EStateM.run_bind, EStateM.run_get, hkey]
      dsimp only
      split <;> rfl
  | ok key =>
      rw [run_startDespawn hkey]
      exact connected_despawned key app

theorem leavesConnection_upsertAll (agents : List (String × Json)) :
    LeavesConnection (upsertAll moment agents) := by
  induction agents with
  | nil => exact leavesConnection_pure
  | cons head rest ih => exact (leavesConnection_upsertAgent _ _).bind ih

theorem leavesConnection_despawnMissing (agents : List (String × Json)) (sids : List DictKey) :
    LeavesConnection (despawnMissing moment agents sids) := by
  induction sids with
  | nil => exact leavesConnection_pure
  | cons sid rest ih =>
      unfold despawnMissing
      split
      · exact (leavesConnection_startDespawn _).bind ih
      · exact ih

theorem leavesConnection_applySnapshot (agents : List (String × Json)) :
    LeavesConnection (applySnapshot moment agents) := by
  refine (leavesConnection_upsertAll agents).bind fun app => ?_
  exact leavesConnection_despawnMissing agents app.agents.keys app

end methods

/-- **What a message does to `connected`**, whatever it is and also when it raises. -/
theorem connected_handleMessage (moment : Moment) (message : Json) (app : App) :
    (after ((handleMessage moment message).run app)).connected = hears app.connected message := by
  cases hobject : message.isObject with
  | false =>
      have hnothing : isConnStatus message = false := by
        cases message with
        | obj members => cases hobject
        | _ => rfl
      have hraises := Json.get_of_not_isObject hobject "type" .null
      unfold handleMessage hears
      rw [EStateM.run_bind, hraises, hnothing]
      rfl
  | true =>
      rw [run_handleMessage hobject]
      unfold hears isConnStatus
      dsimp only
      split
      · rfl
      · split
        · split
          · exact leavesConnection_applySnapshot _ app
          · rfl
        · split
          · split
            · exact leavesConnection_upsertAgent _ _ app
            · split
              · exact leavesConnection_startDespawn _ app
              · rfl
          · rfl

theorem connected_updateGhosts (order : SetOrder) (now : ℚ) (app : App) :
    (app.updateGhosts order now).connected = app.connected := by
  unfold updateGhosts
  dsimp only
  split <;> rfl

theorem connected_foldl (updates : List Update) (app : App) :
    (updates.foldl perform app).connected = (messages updates).foldl hears app.connected := by
  induction updates generalizing app with
  | nil => rfl
  | cons update rest ih =>
      rw [List.foldl_cons, ih]
      cases update with
      | message moment message =>
          rw [perform, connected_handleMessage]
          rfl
      | ghosts order now =>
          rw [perform, connected_updateGhosts]
          rfl

end App

/-! ## What the thread says of it -/

namespace NetClient
namespace Client

/-- Whether there is a connection, as far as the thread has told. -/
def told : Phase → Option Bool
  | .reading _ | .receiving _ => some true
  -- the connection is closed, and nobody has told, or will, if an exception killed the thread
  | .lost | .killed _ => none
  | _ => some false

/-- The daemon does not send what looks like a status of the client. -/
def Genuine (json : JsonModule) (client : Client) (action : Step) : Prop :=
  ∀ chunk buffer messages left, action = .recv (.data chunk) → client.phase = .receiving buffer →
    (NDJSONBuffer.feed json chunk).run buffer = .ok messages left →
      ∀ message ∈ messages, isConnStatus message = false

/-- The thread has told where it is. -/
def Tells (client : Client) : Prop :=
  ∀ connected, told client.phase = some connected → heard client.puts = connected

variable {json : JsonModule} {client next final : Client} {action : Step} {actions : List Step}

theorem tells_receive {buffer : NDJSONBuffer} (h : heard client.puts = true) (outcome : Recv)
    (hgenuine : ∀ chunk messages left, outcome = .data chunk →
      (NDJSONBuffer.feed json chunk).run buffer = .ok messages left →
        ∀ message ∈ messages, isConnStatus message = false) :
    Tells (client.receive json buffer outcome) := by
  intro connected htold
  cases outcome with
  | timeout =>
      cases htold
      exact h
  | osError => cases htold
  | data chunk =>
      unfold receive at htold ⊢
      dsimp only at htold ⊢
      split at htold
      · cases htold
      · rename_i hchunk
        rw [if_neg hchunk]
        cases hfeed : (NDJSONBuffer.feed json chunk).run buffer with
        | ok messages left =>
            rw [hfeed] at htold
            cases htold
            exact (heard_append_of_silent (hgenuine chunk messages left rfl hfeed)).trans h
        | error exception left =>
            rw [hfeed] at htold
            dsimp only at htold
            split at htold <;> cases htold

theorem tells_step (h : Tells client) (hgenuine : Genuine json client action)
    (hstep : client.step json action = some next) : Tells next := by
  cases takes_of_step hstep with
  | stop => exact h
  | attempt hphase _ => exact fun connected htold => h connected (by rwa [hphase])
  | listen hphase _ => exact fun connected htold => h connected (by rwa [hphase])
  | rest hphase _ => exact fun connected htold => h connected (by rwa [hphase])
  | hangUp hphase _ => exact fun connected htold => by cases htold
  | retire hphase _ =>
      intro connected htold
      rcases hphase with hphase | hphase
      · exact h connected (by rwa [hphase])
      · exact h connected (by rwa [hphase])
  | refused hphase => exact fun connected htold => by cases htold
  | accepted hphase =>
      intro connected htold
      cases htold
      exact heard_connStatus _ true
  | recv outcome hphase =>
      refine tells_receive (h true (by rw [hphase]; rfl)) outcome ?_
      rintro chunk messages left rfl hfeed
      exact hgenuine chunk _ messages left rfl hphase hfeed
  | put hphase =>
      intro connected htold
      cases htold
      exact heard_connStatus _ false
  | sleep hphase _ _ => exact fun connected htold => h connected (by rwa [hphase])

theorem heard_of_run (hrun : Run (step json) (Genuine json) initial actions final) :
    Tells final :=
  hrun.invariant (fun _ htold => Option.some.inj htold)
    fun _ _ _ htells hgenuine hstep => tells_step htells hgenuine hstep

end Client
end NetClient

/-! ## The banner of a frame -/

/-- What `draw_connection_banner` covers the screen with. -/
def ScreenOp.isOverlay : ScreenOp → Bool
  | .overlay .. => true
  | _ => false

variable {toolkit : Toolkit}

theorem no_overlay_blitTexts (rect : Rect) (alpha : Option Int) (texts : List TextSurface)
    (textY : Int) : ∀ op ∈ blitTexts rect alpha textY texts, op.isOverlay = false := by
  induction texts generalizing textY with
  | nil => exact fun op hop => absurd hop List.not_mem_nil
  | cons text rest ih =>
      intro op hop
      rcases List.mem_cons.mp hop with rfl | hrest
      · rfl
      · exact ih _ op hrest

theorem no_overlay_deskPicture {layout : Layout} {officeSize : Int × Int} {sid : DictKey}
    {agent : Json} {animTick alpha boost : ℚ} {ops : List ScreenOp}
    (h : deskPicture toolkit layout officeSize sid agent animTick alpha boost = .ok ops) :
    ∀ op ∈ ops, op.isOverlay = false := by
  cases hrect : layout.deskRect sid officeSize with
  | none =>
      rw [deskPicture_of_none hrect] at h
      rw [← Except.ok.inj h]
      exact fun op hop => absurd hop List.not_mem_nil
  | some rect =>
      rw [deskPicture_of_some hrect] at h
      obtain ⟨state, color, sprite, texts, -, rfl⟩ := parts_of_picture h
      intro op hop
      rcases List.mem_cons.mp hop with rfl | htext
      · rfl
      · exact no_overlay_blitTexts _ _ _ _ op htext

theorem no_overlay_statPicture {label stat : String} {x centerY : Int}
    {drawn : Int × List ScreenOp} (h : statPicture toolkit label stat x centerY = .ok drawn) :
    ∀ op ∈ drawn.2, op.isOverlay = false := by
  unfold statPicture at h
  obtain ⟨labelSurf, -, h⟩ := exists_of_bind_ok h
  obtain ⟨statSurf, -, h⟩ := exists_of_bind_ok h
  rw [← Except.ok.inj h]
  intro op hop
  simp only [List.mem_cons, List.not_mem_nil, or_false] at hop
  rcases hop with rfl | rfl <;> rfl

theorem no_overlay_usagePicture {windowSize : Int × Int} {usage : UsageSnapshot}
    {ops : List ScreenOp} (h : usagePicture toolkit windowSize usage = .ok ops) :
    ∀ op ∈ ops, op.isOverlay = false := by
  unfold usagePicture at h
  obtain ⟨session, hsession, h⟩ := exists_of_bind_ok h
  obtain ⟨week, hweek, h⟩ := exists_of_bind_ok h
  rw [← Except.ok.inj h]
  intro op hop
  rcases List.mem_cons.mp hop with rfl | hop
  · rfl
  rcases List.mem_cons.mp hop with rfl | hop
  · rfl
  rcases List.mem_append.mp hop with hop | hop
  · exact no_overlay_statPicture hsession op hop
  · exact no_overlay_statPicture hweek op hop

/-- A scene is covered exactly when there is no connection. -/
theorem overlay_of_scene {app : App} {windowSize : Int × Int} {now animTick : ℚ}
    {usage : UsageSnapshot} {ops : List ScreenOp}
    (h : app.scene toolkit windowSize now animTick usage = .ok ops) :
    (∃ op ∈ ops, op.isOverlay = true) ↔ app.connected = false := by
  obtain ⟨background, agents, ghosts, banner, bar, hbackground, hagents, hghosts, hbanner, hbar,
    rfl⟩ := App.parts_of_scene h
  constructor
  · rintro ⟨op, hop, hoverlay⟩
    -- nothing but the banner covers
    have hnot : ¬ op.isOverlay = false := by
      rw [hoverlay]
      exact Bool.noConfusion
    rcases List.mem_cons.mp hop with rfl | hop
    · cases hoverlay
    rcases List.mem_append.mp hop with hop | hop
    · obtain ⟨surface, -, rfl⟩ := exists_of_map_ok hbackground
      rw [List.mem_singleton.mp hop] at hoverlay
      cases hoverlay
    rcases List.mem_append.mp hop with hop | hop
    · exact absurd (forall_of_pictures (fun _ _ _ hpart => no_overlay_deskPicture hpart) hagents
        op hop) hnot
    rcases List.mem_append.mp hop with hop | hop
    · exact absurd (forall_of_pictures (fun _ _ _ hpart => no_overlay_deskPicture hpart) hghosts
        op hop) hnot
    rcases List.mem_append.mp hop with hop | hop
    · rcases hbanner with ⟨-, rfl⟩ | ⟨hconnected, -⟩
      · cases hop
      · exact hconnected
    · exact absurd (no_overlay_usagePicture hbar op hop) hnot
  · intro hconnected
    rcases hbanner with ⟨hother, -⟩ | ⟨-, hbanner⟩
    · rw [hconnected] at hother
      cases hother
    · unfold bannerPicture at hbanner
      obtain ⟨surface, -, hbanner⟩ := exists_of_bind_ok hbanner
      obtain ⟨text, -, hbanner⟩ := exists_of_bind_ok hbanner
      rw [← Except.ok.inj hbanner]
      refine ⟨.overlay disconnectedOverlay.1 disconnectedOverlay.2 windowSize, ?_, rfl⟩
      simp

namespace Window

/-- **The banner tells the truth.**  Whatever the thread has been through: when all that it has
put on the queue has been handled, and it is not just about to tell, and no exception has killed
it, the frontend knows whether there is a connection, and a frame has the banner exactly when
there is none. -/
theorem banner_tells {json : JsonModule} {actions : List NetClient.Client.Step}
    {client : NetClient.Client}
    (hrun : Run (NetClient.Client.step json) (NetClient.Client.Genuine json)
      NetClient.Client.initial actions client)
    (windowSize : Int × Int) (turns : List Turn) (turn : Turn)
    (harrivals : (turns ++ [turn]).flatMap Turn.arrivals = client.puts) {connected : Bool}
    (htold : NetClient.Client.told client.phase = some connected) :
    let window : Window toolkit := afterTurns windowSize (turns ++ [turn])
    window.queue = [] → window.app.connected = connected ∧
      ∀ ops, frameOf (Feed.afterTurns turns) turn window = some ops →
        ((∃ op ∈ ops, op.isOverlay = true) ↔ connected = false) := by
  intro window hempty
  have hrefines := @refines_afterTurns toolkit windowSize (turns ++ [turn])
  have hqueue : (Feed.afterTurns (turns ++ [turn])).queue = [] := hrefines.queue.symm.trans hempty
  have hmessages : App.messages (Feed.afterTurns (turns ++ [turn])).updates = client.puts := by
    have hall := Feed.messages_foldl ⟨[], []⟩ (turns ++ [turn])
    rw [Feed.afterTurns] at hqueue
    rw [hqueue, List.append_nil, List.nil_append, harrivals] at hall
    rw [Feed.afterTurns, Feed.updates_foldl]
    exact hall
  have hknown : window.app.connected = connected := by
    have hfold := App.connected_foldl (Feed.afterTurns (turns ++ [turn])).updates App.initial
    rw [hmessages] at hfold
    have htells : heard client.puts = connected := NetClient.Client.heard_of_run hrun _ htold
    calc window.app.connected = (Feed.afterTurns (turns ++ [turn])).app.connected :=
          hrefines.app.connected
      _ = heard client.puts := hfold
      _ = connected := htells
  refine ⟨hknown, fun ops hframe => ?_⟩
  rw [← hknown]
  exact overlay_of_scene (scene_of_frameOf hframe)

/-! ### Connected, and lost again -/

def lostAgain : List NetClient.Client.Step :=
  [.test, .connect true, .test, .recv .osError, .put, .test]

def lostAgainClient : NetClient.Client where
  phase := .sleeping
  backoff := NetClient.minBackoff
  stopped := false
  puts := [NetClient.connStatus true, NetClient.connStatus false]

theorem isSome_lostAgain :
    (frameOf (Feed.afterTurns [turnAt 0 [NetClient.connStatus true]])
      (turnAt 1 [NetClient.connStatus false])
      (afterTurns (640, 480) ([turnAt 0 [NetClient.connStatus true]] ++
        [turnAt 1 [NetClient.connStatus false]]) : Window plainToolkit)).isSome = true := by
  decide +kernel

theorem banner_tells_lostAgain :
    ∃ ops, frameOf (Feed.afterTurns [turnAt 0 [NetClient.connStatus true]])
        (turnAt 1 [NetClient.connStatus false])
        (afterTurns (640, 480) ([turnAt 0 [NetClient.connStatus true]] ++
          [turnAt 1 [NetClient.connStatus false]]) : Window plainToolkit) = some ops ∧
      ∃ op ∈ ops, op.isOverlay = true := by
  obtain ⟨ops, hops⟩ := Option.isSome_iff_exists.mp isSome_lostAgain
  have hrun : Run (NetClient.Client.step oneMessageJson) (NetClient.Client.Genuine oneMessageJson)
      .initial lostAgain lostAgainClient := by
    refine run_of_runActions rfl fun action hmem client chunk buffer messages left hdata => ?_
    subst hdata
    simp [lostAgain] at hmem
  have htells := @banner_tells plainToolkit oneMessageJson lostAgain lostAgainClient hrun
    (640, 480) [turnAt 0 [NetClient.connStatus true]] (turnAt 1 [NetClient.connStatus false])
    rfl false rfl (by decide +kernel)
  exact ⟨ops, hops, (htells.2 ops hops).mpr rfl⟩

end Window

end Frontend
end SiliconOffice
