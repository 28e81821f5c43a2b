import SiliconOffice.Frontend.NetClient
import SiliconOffice.Frontend.Seating
import SiliconOffice.Pipeline.Convergence

/-!
# From the registry to the screen

The daemon, the connections to it and the render loop, joined: what the daemon writes to its
clients, cut into whatever pieces, is decoded by the client thread and handled by the loop.

* `undisturbed` — nothing that the daemon sends ever disturbs the loop, however connections
  break off in the middle of it;
* `window_converges` — at rest the window holds what the registry has, whatever earlier
  connections have left.
-/

namespace SiliconOffice
namespace Pipeline

open Library Python Common Daemon Frontend EventLoop NetClient

variable {floatText : PyFloat → String} {repr : Json → Except PyErr String} {json : JsonModule}
  {d final : EventLoop} {registry : SessionRegistry} {actions : List Daemon.Action}
  {writer : Writer} {toolkit : Toolkit}

/-- The messages that a client has been sent. -/
def bodies (d : EventLoop) (writer : Writer) : List Json :=
  (d.sent writer).map Message.body

/-- An attempt to connect, with the client that the daemon took it for. -/
abbrev Connection := Attempt × Writer

/-- The attempt, with what the daemon has sent on it. -/
def Connection.sent (d : EventLoop) (connection : Connection) : Attempt × List Json :=
  (connection.1, bodies d connection.2)

theorem wellFormed_connStatus (connected : Bool) : App.WellFormed (connStatus connected) := by
  refine ⟨rfl, ⟨fun agents hagents => ?_, fun agent hagent => ?_⟩, fun value hvalue => ?_,
    fun agents hagents => ?_, fun value hvalue => ?_⟩
  · cases hagents
  · cases hagent
  · cases hvalue
  · cases hagents
  · cases hvalue

theorem wellFormed_of_sent (h : Honest floatText d) {body : Json} (hbody : body ∈ bodies d writer) :
    App.WellFormed body := by
  obtain ⟨message, hmessage, rfl⟩ := List.mem_map.mp hbody
  obtain ⟨report, hreport⟩ := (h.sent writer message hmessage).carries
  obtain ⟨ts, hts⟩ := hreport.body
  rw [hts]
  exact wellFormed_report floatText ts hreport.proper

/-- What reaches the queue is what was sent, or a message of the client thread itself. -/
theorem good_of_delivered {good : Json → Prop} (hown : ∀ connected, good (connStatus connected))
    {connection : Connection} (hsent : ∀ body ∈ bodies d connection.2, good body) {message : Json}
    (hmessage : message ∈ delivered json (connection.sent d)) : good message := by
  rcases List.mem_append.mp hmessage with hbefore | hlast
  · obtain ⟨attempt, writer⟩ := connection
    cases attempt with
    | refused => cases hbefore
    | connected recvs =>
        rcases List.mem_cons.mp hbefore with rfl | harrived
        · exact hown true
        · exact hsent message (mem_of_mem_arrived harrived)
  · rw [List.mem_singleton.mp hlast]
    exact hown false

/-- What the client thread puts on the queue, attempt by attempt, until it is stopped in one. -/
def queueOf (json : JsonModule) (d : EventLoop) : List Connection → List Json
  | [] => []
  | connection :: rest =>
      delivered json (connection.sent d) ++
        if stops connection.1 then [] else queueOf json d rest

/-- The client thread decodes all that arrives whole, and puts nothing else on the queue. -/
theorem run_queueOf {connections : List Connection}
    (hstreams : ∀ connection ∈ connections, Streams json (connection.sent d))
    (queue : List Json) :
    (NetClient.run json (connections.map Prod.fst)).run queue =
      .ok () (queue ++ queueOf json d connections) := by
  induction connections generalizing queue with
  | nil => exact congrArg (EStateM.Result.ok ()) (List.append_nil queue).symm
  | cons connection rest ih =>
      have hrest := fun queue =>
        ih (fun other hother => hstreams other (List.mem_cons_of_mem _ hother)) queue
      rw [List.map_cons, show connection.1 = (connection.sent d).1 from rfl,
        run_cons (hstreams connection List.mem_cons_self), queueOf,
        show stops (connection.sent d).1 = stops connection.1 from rfl]
      cases stops connection.1 with
      | true => rw [if_pos rfl, if_pos rfl, List.append_nil]
      | false => rw [if_neg Bool.false_ne_true, if_neg Bool.false_ne_true, hrest, List.append_assoc]

theorem good_of_mem_queueOf {good : Json → Prop} (hown : ∀ connected, good (connStatus connected))
    (hsent : ∀ writer, ∀ body ∈ bodies d writer, good body) {connections : List Connection} :
    ∀ message ∈ queueOf json d connections, good message := by
  induction connections with
  | nil => exact fun message hmessage => absurd hmessage List.not_mem_nil
  | cons connection rest ih =>
      intro message hmessage
      rcases List.mem_append.mp hmessage with harrived | hlater
      · exact good_of_delivered hown (hsent connection.2) harrived
      · split at hlater
        · cases hlater
        · exact ih message hlater

theorem wellFormed_of_mem_queueOf (h : Honest floatText d) {connections : List Connection} :
    ∀ message ∈ queueOf json d connections, App.WellFormed message :=
  good_of_mem_queueOf wellFormed_connStatus fun _ _ hbody => wellFormed_of_sent h hbody

/-- **Nothing that the daemon sends disturbs the render loop.**  However often a frontend
connects, wherever its connections break off and however the bytes are cut: all messages that
arrive whole are put on the queue, and nothing else but the statuses; no message raises, every
turn handles all that has arrived, and the state stays settled. -/
theorem undisturbed (hnamed : Named registry)
    (hrun : Run (step repr floatText) FromHooks (fresh registry) actions final)
    {connections : List Connection}
    (hstreams : ∀ connection ∈ connections, Streams json (connection.sent final)) :
    (NetClient.run json (connections.map Prod.fst)).run [] =
        .ok () (queueOf json final connections) ∧
      ∀ (windowSize : Int × Int) (turns : List Turn),
        turns.flatMap Turn.arrivals <+: queueOf json final connections →
        let window : Window toolkit := Window.afterTurns windowSize turns
        App.initial.raisings (Feed.afterTurns turns).updates = 0 ∧ window.queue = [] ∧
          App.Settled window.app := by
  have hhonest : Honest floatText final := (sound_of_run hnamed hrun).honest
  refine ⟨run_queueOf hstreams [], fun windowSize turns harrived => ?_⟩
  obtain ⟨hempty, -, hraisings, hsettled⟩ := @Window.settled_of_wellFormed toolkit windowSize turns
    fun turn hturn message hmessage => by
      apply wellFormed_of_mem_queueOf hhonest
      exact harrived.subset (List.mem_flatMap.mpr ⟨turn, hturn, hmessage⟩)
  exact ⟨hraisings, hempty, hsettled⟩

/-! ### A greeting and a diff -/

/-- A `json` module that knows two messages. -/
def twoTexts (greeting diff : Json) : JsonModule where
  dumps obj := if ((obj.get? "type").getD .null).isText "snapshot" then "\x7b\x7d" else "[]"
  parse text :=
    if text = "\x7b\x7d" then .ok greeting
    else if text = "[]" then .ok diff
    else .error .jsonDecodeError

theorem admissible_twoTexts {greeting diff : Json}
    (hgreeting : greeting.get? "type" = some (.str "snapshot"))
    (hdiff : diff.get? "type" = some (.str "diff")) :
    ∀ body ∈ [greeting, diff], (StreamItem.message body).Admissible (twoTexts greeting diff) := by
  have hobject : ∀ {body : Json} {text : String}, body.get? "type" = some (.str text) →
      body.isObject = true := by
    intro body text hget
    cases body with
    | obj members => rfl
    | _ => cases hget
  have hsnapshot : (twoTexts greeting diff).dumps greeting = "\x7b\x7d" := by
    unfold twoTexts
    dsimp only
    rw [hgreeting]
    rfl
  have hother : (twoTexts greeting diff).dumps diff = "[]" := by
    unfold twoTexts
    dsimp only
    rw [hdiff]
    rfl
  intro body hbody
  simp only [List.mem_cons, List.not_mem_nil, or_false] at hbody
  rcases hbody with rfl | rfl
  · refine ⟨hobject hgreeting, ?_, ?_⟩
    · rw [hsnapshot]
      rfl
    · rw [hsnapshot]
      decide
  · refine ⟨hobject hdiff, ?_, ?_⟩
    · rw [hother]
      rfl
    · rw [hother]
      decide

theorem received_whole (stream : Bytes) : NetClient.received [.data stream] = stream := by
  cases stream with
  | nil => rfl
  | cons byte rest => exact List.append_nil _

/-- The frontend is refused, then connected; the connection breaks off after nine bytes. -/
theorem undisturbed_prompt :
    ∃ (final : EventLoop) (greeting diff : Json) (queue : List Json),
      bodies final 0 = [greeting, diff] ∧
        (NetClient.run (twoTexts greeting diff) [.refused, .connected [.data
          ((bodies final 0).flatMap (encodeMessage (twoTexts greeting diff)) |>.take 9)]]).run [] =
          .ok () queue ∧
        (Window.afterTurns (640, 480) [Window.turnAt 1 queue] : Window Window.plainToolkit).queue =
          [] := by
  obtain ⟨final, hrun, -, -, -, -, -, greeting, diff, hbodies, hgreeting, hdiff⟩ :=
    run_promptActions
  obtain ⟨hqueue, hwindow⟩ := @undisturbed (fun _ => "") (fun _ => .ok "")
    (twoTexts greeting diff) final .fresh promptActions Window.plainToolkit named_fresh hrun
    [(.refused, 0), (.connected [.data
      ((bodies final 0).flatMap (encodeMessage (twoTexts greeting diff)) |>.take 9)], 0)]
    fun connection hconnection recvs hrecvs => by
      simp only [List.mem_cons, List.not_mem_nil, or_false] at hconnection
      rcases hconnection with rfl | rfl
      · cases hrecvs
      · cases hrecvs
        refine ⟨?_, ?_⟩
        · unfold Connection.sent bodies
          rw [hbodies]
          exact admissible_twoTexts hgreeting hdiff
        · rw [received_whole]
          exact List.take_prefix 9 _
  refine ⟨final, greeting, diff, _, hbodies, hqueue, (hwindow (640, 480)
    [Window.turnAt 1 _] ?_).2.1⟩
  exact ⟨[], (List.append_nil _).trans (List.append_nil _)⟩

/-! ## At rest -/

theorem arrived_all (sent : List Json) :
    arrived json sent (sent.flatMap (encodeMessage json)).length = sent := by
  unfold arrived
  induction sent with
  | nil => rfl
  | cons obj rest ih =>
      rw [List.flatMap_cons, List.length_append, fitting, if_pos (Nat.le_add_right _ _),
        Nat.add_sub_cancel_left, ih]

/-- Connections that have broken off, and one on which all has arrived. -/
theorem queueOf_concat {connections : List Connection} {recvs : List Recv}
    (hbroken : ∀ connection ∈ connections, stops connection.1 = false)
    (hrecvs : NetClient.received recvs = (bodies d writer).flatMap (encodeMessage json)) :
    queueOf json d (connections ++ [(.connected recvs, writer)]) =
      queueOf json d connections ++ connStatus true :: bodies d writer ++ [connStatus false] := by
  induction connections with
  | nil =>
      have hdelivered : delivered json (.connected recvs, bodies d writer) =
          connStatus true :: bodies d writer ++ [connStatus false] := by
        unfold delivered
        dsimp only
        rw [hrecvs, arrived_all]
      show delivered json (.connected recvs, bodies d writer) ++ _ = _
      rw [hdelivered]
      exact (congrArg _ (ite_self _)).trans (List.append_nil _)
  | cons connection rest ih =>
      rw [List.cons_append, queueOf, queueOf, hbroken connection List.mem_cons_self,
        if_neg Bool.false_ne_true, if_neg Bool.false_ne_true,
        ih fun other hother => hbroken other (List.mem_cons_of_mem _ hother)]
      simp only [List.append_assoc]

/-- The client thread on these connections. -/
theorem run_connections {connections : List Connection} {recvs : List Recv}
    (hstreams : ∀ connection ∈ connections, Streams json (connection.sent d))
    (hbroken : ∀ connection ∈ connections, stops connection.1 = false)
    (hjson : ∀ body ∈ bodies d writer, (StreamItem.message body).Admissible json)
    (hrecvs : NetClient.received recvs = (bodies d writer).flatMap (encodeMessage json)) :
    (NetClient.run json (connections.map Prod.fst ++ [.connected recvs])).run [] =
      .ok () (queueOf json d connections ++ connStatus true :: bodies d writer ++
        [connStatus false]) := by
  have hall : ∀ connection ∈ connections ++ [(.connected recvs, writer)],
      Streams json (connection.sent d) := by
    intro connection hconnection
    rcases List.mem_append.mp hconnection with hearlier | hlast
    · exact hstreams connection hearlier
    · rw [List.mem_singleton.mp hlast]
      rintro received' ⟨⟩
      exact ⟨hjson, hrecvs ▸ List.prefix_refl _⟩
  have hrun := run_queueOf hall []
  rw [List.map_append, queueOf_concat hbroken hrecvs] at hrun
  exact hrun

/-- The updates of a run, cut where the messages are. -/
theorem split_messages {updates : List App.Update} {first second : List Json}
    (h : App.messages updates = first ++ second) :
    ∃ earlier later, updates = earlier ++ later ∧ App.messages earlier = first ∧
      App.messages later = second := by
  induction first generalizing updates with
  | nil => exact ⟨[], updates, rfl, rfl, h⟩
  | cons message rest ih =>
      induction updates with
      | nil => cases h
      | cons update others ihUpdates =>
          cases update with
          | message moment handled =>
              obtain ⟨rfl, hrest⟩ := List.cons.inj h
              obtain ⟨earlier, later, rfl, hfirst, hsecond⟩ := ih hrest
              exact ⟨.message moment handled :: earlier, later, rfl,
                congrArg (handled :: ·) hfirst, hsecond⟩
          | ghosts order now =>
              obtain ⟨earlier, later, rfl, hfirst, hsecond⟩ := ihUpdates h
              exact ⟨.ghosts order now :: earlier, later, rfl, hfirst, hsecond⟩

theorem allObjects_foldl {app : App} {updates : List App.Update} (happ : App.AllObjects app)
    (hupdates : ∀ message ∈ App.messages updates, App.WellFormed message) :
    App.AllObjects (updates.foldl App.perform app) := by
  induction updates generalizing app with
  | nil => exact happ
  | cons update rest ih =>
      refine ih (App.allObjects_perform happ ?_) fun message hmessage => hupdates message ?_
      · rintro moment message rfl
        exact hupdates message List.mem_cons_self
      · rw [← List.singleton_append, App.messages_append]
        exact List.mem_append_right _ hmessage

/-- **At rest the window holds what the registry has.**  A frontend may have been connected
before, any number of times and to any point; it may have handled anything by then.  When it is
connected, the daemon is at rest and all that was sent has been handled, its agents are the
sessions of the registry, each with the state, the label and the time of its record. -/
theorem window_converges (hnamed : Named registry)
    (hrun : Run (step repr floatText) FromHooks (fresh registry) actions final)
    (hidle : final.Idle) (hclient : writer ∈ final.clients) (hsent : final.sent writer ≠ [])
    (hforward : (final.sent writer).Pairwise fun earlier later =>
      ¬ later.stamp.Older final.changes earlier.stamp)
    {connections : List Connection} {recvs : List Recv}
    (hstreams : ∀ connection ∈ connections, Streams json (connection.sent final))
    (hbroken : ∀ connection ∈ connections, stops connection.1 = false)
    (hjson : ∀ body ∈ bodies final writer, (StreamItem.message body).Admissible json)
    (hrecvs : NetClient.received recvs = (bodies final writer).flatMap (encodeMessage json)) :
    ∃ queue, (NetClient.run json (connections.map Prod.fst ++ [.connected recvs])).run [] =
        .ok () (queue ++ [connStatus false]) ∧
      ∀ (windowSize : Int × Int) (turns : List Turn), turns.flatMap Turn.arrivals = queue →
        let window : Window toolkit := Window.afterTurns windowSize turns
        window.queue = [] ∧ App.Settled window.app ∧ Agrees final.registry window.app := by
  have hsound := sound_of_run hnamed hrun
  have hearlier : ∀ message ∈ queueOf json final connections, App.WellFormed message :=
    wellFormed_of_mem_queueOf hsound.honest
  refine ⟨_, run_connections hstreams hbroken hjson hrecvs, fun windowSize turns harrived => ?_⟩
  have hwellFormed : ∀ message ∈ turns.flatMap Turn.arrivals, App.WellFormed message := by
    intro message hmessage
    rw [harrived] at hmessage
    rcases List.mem_append.mp hmessage with hold | hnew
    · exact hearlier message hold
    · rcases List.mem_cons.mp hnew with rfl | hbody
      · exact wellFormed_connStatus true
      · exact wellFormed_of_sent hsound.honest hbody
  obtain ⟨hempty, hmessages, -, hsettled⟩ :=
    @Window.settled_of_wellFormed toolkit windowSize turns fun turn hturn message hmessage =>
      hwellFormed message (List.mem_flatMap.mpr ⟨turn, hturn, hmessage⟩)
  refine ⟨hempty, hsettled, ?_⟩
  -- the last connection has sent all of its log
  rw [harrived, List.append_cons] at hmessages
  obtain ⟨before, after', hupdates, hbefore, hafter⟩ := split_messages hmessages
  have hobjects : App.AllObjects (before.foldl App.perform App.initial) := by
    refine allObjects_foldl (fun key value hget => by cases hget) fun message hmessage => ?_
    rw [hbefore] at hmessage
    rcases List.mem_append.mp hmessage with hold | hstatus
    · exact hearlier message hold
    · rw [List.mem_singleton.mp hstatus]
      exact wellFormed_connStatus true
  have hagrees := converges hnamed hrun hidle hclient hsent hforward hobjects hafter
  have hrefines := @Window.refines_afterTurns toolkit windowSize turns
  have happ : (Feed.afterTurns turns).app = after'.foldl App.perform
      (before.foldl App.perform App.initial) := by
    rw [Feed.app, App.history, hupdates, List.foldl_append]
  unfold Agrees at hagrees ⊢
  rw [hrefines.app.agents, happ]
  exact hagrees

/-- The frontend was refused once; then all arrives in one piece. -/
theorem window_converges_prompt :
    ∃ (final : EventLoop) (queue : List Json),
      final.changes = [⟨.str "s1", .upsert⟩] ∧
        Agrees final.registry (Window.afterTurns (640, 480) [Window.turnAt 1 queue] :
          Window Window.plainToolkit).app := by
  obtain ⟨final, hrun, hidle, hclients, -, hchanges, hstamps, greeting, diff, hbodies, hgreeting,
    hdiff⟩ := run_promptActions
  have hsent : final.sent 0 ≠ [] := by
    intro hnil
    rw [hnil] at hstamps
    cases hstamps
  have hforward : (final.sent 0).Pairwise fun earlier later =>
      ¬ later.stamp.Older final.changes earlier.stamp := by
    have hpairs : ((final.sent 0).map Message.stamp).Pairwise fun earlier later =>
        ¬ later.Older final.changes earlier := by
      rw [hstamps]
      refine List.pairwise_pair.mpr ?_
      rintro ⟨session, older, newer, -, hnewer, hless⟩
      cases hnewer
      exact Nat.not_lt_zero _ hless
    exact List.pairwise_map.mp hpairs
  obtain ⟨queue, -, hwindow⟩ := @window_converges (fun _ => "") (fun _ => .ok "")
    (twoTexts greeting diff) final .fresh promptActions 0 Window.plainToolkit named_fresh hrun hidle
    (hclients ▸ List.mem_cons_self) hsent hforward [(.refused, 0)]
    [.data ((bodies final 0).flatMap (encodeMessage (twoTexts greeting diff)))]
    (fun connection hconnection recvs hrecvs => by
      rw [List.mem_singleton.mp hconnection] at hrecvs
      cases hrecvs)
    (fun connection hconnection => by
      rw [List.mem_singleton.mp hconnection]
      rfl)
    (by
      unfold bodies
      rw [hbodies]
      exact admissible_twoTexts hgreeting hdiff)
    (received_whole _)
  exact ⟨final, queue, hchanges,
    (hwindow (640, 480) [Window.turnAt 1 queue] (List.append_nil _)).2.2⟩

end Pipeline
end SiliconOffice
