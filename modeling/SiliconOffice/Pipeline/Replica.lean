import SiliconOffice.Daemon.Liveness
import SiliconOffice.Daemon.WellTyped
import SiliconOffice.Frontend.Healing

/-!
# The frontend as a replica of the registry

The daemon and one frontend, joined by the messages that the daemon sends: each step of
the daemon hands the messages that it causes to the connected frontend, in order, before
the next step.  A frontend may connect at any time with whatever an earlier connection
left in it; all it is greeted with is a snapshot.

* `Agrees` — the frontend shows the sessions of the registry, each with its activity;
* `agrees_store`, `agrees_discard`, `agrees_same` — one lemma per kind of registry update;
* `agents_of_upsert`, `agents_of_remove`, `agents_of_snapshot` — one per kind of message;
* `replica_agrees` — the two sides agree after every run.
-/

namespace SiliconOffice
namespace Pipeline

open Library Python Common Daemon Frontend

/-- The daemon's registry and, while one is connected, the frontend. -/
structure Deployment where
  registry : SessionRegistry
  app : Option App

/-- A message on its way, with the moment at which the frontend handles it. -/
abbrev Delivery := Moment × Json

/-- The frontend handles messages one after the other; what raises is swallowed. -/
def deliver (app : App) (deliveries : List Delivery) : App :=
  deliveries.foldl (fun app delivery =>
    after ((App.handleMessage delivery.1 delivery.2).run app)) app

/-- What happens next: a datagram, a sweep of the reaper, a periodic snapshot, a frontend
that connects with what it still holds, the loss of the connection, the end of fade-outs. -/
inductive Action
  | event (host : Host) (payload : Json) (now ts : ℚ) (moment : Moment)
  | sweep (host : Host) (ts : DictKey → ℚ) (moments : DictKey → Moment)
  | tick (ts : ℚ) (moment : Moment)
  | connect (leftover : App) (status : Moment) (ts : ℚ) (moment : Moment)
  | disconnect
  | ghosts (order : SetOrder) (now : ℚ)

variable (repr : Json → Except PyErr String) (floatText : PyFloat → String)

/-- The diff that `on_event` broadcasts, if any. -/
def diffMessages (ts : ℚ) (moment : Moment) : Option DiffCall → List Delivery
  | some call => [(moment, makeDiffMessage call.sessionId call.op call.agent ts)]
  | none => []

/-- The diffs that the reaper broadcasts: one removal for each session it dropped. -/
def removeMessages (ts : DictKey → ℚ) (moments : DictKey → Moment) (dead : List DictKey) :
    List Delivery :=
  dead.map fun sid => (moments sid, makeDiffMessage sid.toJson .remove none (ts sid))

/-- `{"type": "_conn_status", "connected": True}`. -/
def connected : Json :=
  .obj [("type", .str "_conn_status"), ("connected", .bool true)]

/-- One step, with its messages delivered to the connected frontend. -/
def perform (d : Deployment) : Action → Deployment
  | .event host payload now ts moment =>
      match (onEvent repr host payload now).run d.registry with
      | .ok call left => ⟨left, d.app.map fun app => deliver app (diffMessages ts moment call)⟩
      -- `datagram_received` swallows the exception and nothing is broadcast
      | .error _ left => ⟨left, d.app⟩
  | .sweep host ts moments =>
      match (SessionRegistry.sweep host).run d.registry with
      | .ok dead left =>
          ⟨left, d.app.map fun app => deliver app (removeMessages ts moments dead)⟩
      -- `reaper_loop` swallows the exception before any announcement
      | .error _ left => ⟨left, d.app⟩
  | .tick ts moment =>
      { d with
        app := d.app.map fun app =>
          deliver app [(moment, makeSnapshotMessage floatText d.registry.agents ts)] }
  | .connect leftover status ts moment =>
      { d with
        app := some (deliver leftover
          [(status, connected),
           (moment, makeSnapshotMessage floatText d.registry.agents ts)]) }
  | .disconnect => { d with app := none }
  | .ghosts order now => { d with app := d.app.map (App.updateGhosts order now) }

/-- The deployment after a run. -/
def run (start : Deployment) (actions : List Action) : Deployment :=
  actions.foldl (perform repr floatText) start

/-! ## What the two sides agree on -/

/-- What the frontend holds shows the activity of the record. -/
structure Shows (record : AgentRecord) (agent : Json) : Prop where
  state : agent.get? "state" = some (.str record.state.text)
  actionLabel : agent.get? "action_label" = some (.str record.actionLabel)
  stateSince : agent.get? "state_since" = some (.float (.finite record.stateSince))

/-- The frontend has exactly the sessions of the registry, each with its activity. -/
def Agrees (registry : SessionRegistry) (app : App) : Prop :=
  OrderedDict.Related Shows registry.agents app.agents

/-- Every session of the registry is named by a non-empty string. -/
def Named (registry : SessionRegistry) : Prop :=
  ∀ key, registry.get? key ≠ none → ∃ sid, sid ≠ "" ∧ key = .str sid

theorem shows_toWireDict (record : AgentRecord) : Shows record record.toWireDict where
  state := rfl
  actionLabel := rfl
  stateSince := rfl

theorem Shows.of_sameActivity {record final : AgentRecord} {agent : Json}
    (h : Shows record agent) (hsame : SameActivity record final) : Shows final agent := by
  obtain ⟨hstate, hlabel, hsince⟩ := hsame
  exact ⟨hstate ▸ h.state, hlabel ▸ h.actionLabel, hsince ▸ h.stateSince⟩

theorem Shows.isObject {record : AgentRecord} {agent : Json} (h : Shows record agent) :
    agent.isObject = true := by
  cases agent with
  | obj members => rfl
  | _ => cases h.state

variable {registry left : SessionRegistry} {app app' : App} {key : DictKey}

/-- A frontend that agrees holds objects only. -/
theorem Agrees.allObjects (h : Agrees registry app) : App.AllObjects app := by
  intro key value hget
  obtain ⟨record, -, hshows⟩ := OrderedDict.Related.exists_left h hget
  exact hshows.isObject

/-! ## Updates of the registry -/

theorem agrees_store {record : AgentRecord} {agent : Json} (h : Agrees registry app)
    (hagents : app'.agents = app.agents.store key agent) (hshows : Shows record agent) :
    Agrees (registry.store key record) app' := by
  unfold Agrees
  rw [hagents]
  exact OrderedDict.Related.store h hshows key

theorem agrees_discard (h : Agrees registry app)
    (hagents : ∀ other, app'.agents.get? other =
      if other == key then none else app.agents.get? other) :
    Agrees (registry.discard key) app' := by
  intro other
  rw [hagents other, ← OrderedDict.get?_discard]
  exact OrderedDict.Related.discard h key other

/-- What leaves every activity alone needs no message. -/
theorem agrees_same (h : Agrees registry app)
    (hsame : OrderedDict.Related SameActivity registry.agents left.agents) :
    Agrees left app :=
  hsame.symm.trans h fun _ _ _ hactivity hshows => hshows.of_sameActivity hactivity

/-! ## Messages -/

theorem truthy_of_ne_empty {sid : String} (h : sid ≠ "") : (Json.str sid).truthy = true :=
  bne_iff_ne.mpr h

/-- An upsert diff stores the record that it carries. -/
theorem agents_of_upsert (moment : Moment) {sid : String} (hsid : sid ≠ "")
    (record : AgentRecord) (ts : ℚ) (h : App.AllObjects app) :
    (after ((App.handleMessage moment
        (makeDiffMessage (.str sid) .upsert (some record) ts)).run app)).agents =
      app.agents.store (.str sid) record.toWireDict := by
  obtain ⟨app', hrun, hagents⟩ := @App.run_upsertAgent_ok moment (.str sid) record.toWireDict
    (.str sid) app rfl (h (.str sid)) record.isObject_toWireDict
  have hmessage : (App.handleMessage moment
      (makeDiffMessage (.str sid) .upsert (some record) ts)).run app =
        (App.upsertAgent moment (.str sid) record.toWireDict).run app := by
    rw [App.run_handleMessage rfl]
    exact if_pos (truthy_of_ne_empty hsid)
  rw [hmessage, hrun, after_ok, hagents]

/-- A remove diff drops the session, known or not. -/
theorem agents_of_remove (moment : Moment) {sid : String} (hsid : sid ≠ "") (ts : ℚ)
    (app : App) (other : DictKey) :
    (after ((App.handleMessage moment
        (makeDiffMessage (.str sid) .remove none ts)).run app)).agents.get? other =
      if other == .str sid then none else app.agents.get? other := by
  have hmessage : (App.handleMessage moment
      (makeDiffMessage (.str sid) .remove none ts)).run app =
        (App.startDespawn moment (.str sid)).run app := by
    rw [App.run_handleMessage rfl]
    exact if_pos (truthy_of_ne_empty hsid)
  rw [hmessage, App.run_startDespawn rfl, after_ok, App.agents_despawned]

/-- The members of a snapshot are looked up like the registry itself. -/
theorem named_items {items : List (DictKey × AgentRecord)}
    (h : ∀ item ∈ items, ∃ sid, item.1 = .str sid) (key : DictKey) :
    App.named (items.map fun item => (item.1.memberName floatText, item.2.toWireDict)) key =
      (items.lookup key).map AgentRecord.toWireDict := by
  induction items with
  | nil => cases key <;> rfl
  | cons head rest ih =>
      obtain ⟨first, record⟩ := head
      obtain ⟨sid, hsid⟩ : ∃ sid, first = .str sid := h (first, record) List.mem_cons_self
      subst hsid
      rw [List.map_cons, App.named_cons, Assoc.lookup_cons_ite,
        ih fun item hitem => h item (List.mem_cons_of_mem _ hitem)]
      change (if key == .str sid then _ else _) = Option.map _ (if key == .str sid then _ else _)
      split <;> rfl

theorem Named.of_mem (h : Named registry) {item : DictKey × AgentRecord}
    (hitem : item ∈ registry.agents.items) : ∃ sid, sid ≠ "" ∧ item.1 = .str sid := by
  refine h item.1 ?_
  rw [show registry.get? item.1 = some item.2 from OrderedDict.get?_of_mem hitem]
  exact Option.some_ne_none item.2

/-- Sessions named by strings make a well-formed snapshot. -/
theorem isSnapshot_makeSnapshotMessage (h : Named registry) (ts : ℚ) :
    App.IsSnapshot (makeSnapshotMessage floatText registry.agents ts)
      (registry.agents.items.map fun item =>
        (item.1.memberName floatText, item.2.toWireDict)) where
  hasType := rfl
  hasAgents := rfl
  distinct := by
    rw [List.map_map, List.Nodup, List.pairwise_map]
    refine registry.agents.distinct.imp_of_mem fun {first second} hfirst hsecond hne hsame => ?_
    obtain ⟨sid, -, hsid⟩ := h.of_mem hfirst
    obtain ⟨other, -, hother⟩ := h.of_mem hsecond
    have hnames : sid = other := by
      simpa [hsid, hother, DictKey.memberName] using hsame
    rw [hsid, hother, hnames, BEq.refl] at hne
    cases hne
  objects item hitem := by
    obtain ⟨source, -, rfl⟩ := List.mem_map.mp hitem
    exact source.2.isObject_toWireDict

/-- **A snapshot makes a frontend agree**, whatever objects it held before. -/
theorem agrees_of_snapshot (hnamed : Named registry) (moment : Moment) (ts : ℚ)
    (h : App.AllObjects app) :
    Agrees registry
      (after ((App.handleMessage moment
        (makeSnapshotMessage floatText registry.agents ts)).run app)) := by
  have hsnapshot := isSnapshot_makeSnapshotMessage floatText hnamed ts
  obtain ⟨-, hheld⟩ := (@App.heals_iff moment _ app _ hsnapshot).mpr (h.readable _)
  intro key
  rw [hheld key, named_items floatText fun item hitem => (hnamed.of_mem hitem).imp fun _ h => h.2]
  change Option.Rel Shows (registry.get? key) ((registry.get? key).map AgentRecord.toWireDict)
  cases registry.get? key with
  | none => exact .none
  | some record => exact .some (shows_toWireDict record)

/-! ## Steps -/

/-- What is assumed of a step: datagrams come from the emitter, session files that can be
read hold objects, and a frontend that connects has been handed objects only. -/
def Allowed : Action → Prop
  | .event host payload _ _ _ => IsHookPayload payload ∧ ObjectFiles host
  | .connect leftover _ _ _ => App.AllObjects leftover
  | _ => True

/-- The deployment between two steps. -/
structure Consistent (d : Deployment) : Prop where
  named : Named d.registry
  agrees : ∀ app, d.app = some app → Agrees d.registry app

theorem Named.store (h : Named registry) {sid : String} (hsid : sid ≠ "")
    (record : AgentRecord) : Named (registry.store (.str sid) record) := by
  intro key htracked
  rw [SessionRegistry.get?_store] at htracked
  split at htracked
  · rename_i hkey
    exact ⟨sid, hsid, DictKey.beq_str_iff.mp hkey⟩
  · exact h key htracked

/-- Sessions that are still there were there before. -/
theorem Named.of_kept (h : Named registry)
    (hkept : ∀ key, left.get? key ≠ none → registry.get? key ≠ none) : Named left :=
  fun key htracked => h key (hkept key htracked)

theorem Named.of_related {related : AgentRecord → AgentRecord → Prop} (h : Named registry)
    (hrelated : OrderedDict.Related related registry.agents left.agents) : Named left :=
  h.of_kept fun key => mt (hrelated.none_iff key).mpr

/-- A datagram and the diff that it causes. -/
theorem consistent_observed {d : Deployment} (h : Consistent d) {call : Option DiffCall}
    {left : SessionRegistry} (hobserved : Observed d.registry call left) (ts : ℚ)
    (moment : Moment) :
    Consistent ⟨left, d.app.map fun app => deliver app (diffMessages ts moment call)⟩ := by
  cases hobserved with
  | silent hsame =>
      refine ⟨h.named.of_related hsame, fun app happ => ?_⟩
      obtain ⟨before, hbefore, rfl⟩ := Option.map_eq_some_iff.mp happ
      exact agrees_same (h.agrees before hbefore) hsame
  | upserted sid record hsid =>
      refine ⟨h.named.store hsid record, fun app happ => ?_⟩
      obtain ⟨before, hbefore, rfl⟩ := Option.map_eq_some_iff.mp happ
      have hagrees := h.agrees before hbefore
      exact agrees_store hagrees (agents_of_upsert moment hsid record ts hagrees.allObjects)
        (shows_toWireDict record)
  | removed sid hsid =>
      refine ⟨h.named.of_kept fun key htracked => ?_, fun app happ => ?_⟩
      · rw [SessionRegistry.get?_discard] at htracked
        split at htracked
        · exact absurd rfl htracked
        · exact htracked
      · obtain ⟨before, hbefore, rfl⟩ := Option.map_eq_some_iff.mp happ
        exact agrees_discard (h.agrees before hbefore) (agents_of_remove moment hsid ts before)

/-- The removals of a sweep drop exactly the sessions that they name. -/
theorem agents_of_removals (ts : DictKey → ℚ) (moments : DictKey → Moment)
    {dead : List DictKey} (hdead : ∀ sid ∈ dead, ∃ text, text ≠ "" ∧ sid = .str text)
    (app : App) (key : DictKey) :
    (deliver app (removeMessages ts moments dead)).agents.get? key =
      if dead.any (key == ·) then none else app.agents.get? key := by
  -- on the removals: each drops its own session
  induction dead generalizing app with
  | nil => rfl
  | cons sid rest ih =>
      obtain ⟨text, htext, rfl⟩ := hdead sid List.mem_cons_self
      have hrest := ih (fun other hother => hdead other (List.mem_cons_of_mem _ hother))
        (after ((App.handleMessage (moments (.str text))
          (makeDiffMessage (.str text) .remove none (ts (.str text)))).run app))
      rw [agents_of_remove (moments (.str text)) htext (ts (.str text)) app key] at hrest
      refine hrest.trans ?_
      rw [List.any_cons]
      cases key == .str text with
      | true => simp
      | false => rfl

/-- Resolving identities leaves every activity alone. -/
theorem sameActivity_of_related {host : Host}
    (h : OrderedDict.Related (Resolves host) registry.agents left.agents) :
    OrderedDict.Related SameActivity registry.agents left.agents := by
  refine h.mono fun record final hresolves => ?_
  obtain ⟨-, hstate, hlabel, hsince⟩ := hresolves.frame
  exact ⟨hstate, hlabel, hsince⟩

/-- A sweep that returns, and the removals that it causes. -/
theorem consistent_swept {d : Deployment} (h : Consistent d) {host : Host}
    {dead : List DictKey} {left : SessionRegistry}
    (hrun : (SessionRegistry.sweep host).run d.registry = .ok dead left) (ts : DictKey → ℚ)
    (moments : DictKey → Moment) :
    Consistent ⟨left, d.app.map fun app => deliver app (removeMessages ts moments dead)⟩ := by
  have hkept := SessionRegistry.sweep_none_iff hrun
  have hdead : ∀ sid ∈ dead, ∃ text, text ≠ "" ∧ sid = .str text := fun sid hsid =>
    h.named sid (SessionRegistry.sweep_reports_tracked hrun hsid)
  refine ⟨h.named.of_kept fun key htracked huntracked =>
    htracked ((hkept key).mpr (.inl huntracked)), fun app happ => ?_⟩
  obtain ⟨before, hbefore, rfl⟩ := Option.map_eq_some_iff.mp happ
  obtain ⟨resolvedRegistry, hrelated, rfl⟩ := SessionRegistry.related_of_sweep hrun
  have hresolved : Agrees resolvedRegistry before :=
    agrees_same (h.agrees before hbefore) (sameActivity_of_related hrelated)
  intro key
  rw [agents_of_removals ts moments hdead before key]
  change Option.Rel Shows ((dead.foldl SessionRegistry.discard resolvedRegistry).get? key) _
  rw [SessionRegistry.get?_foldl_discard]
  split
  · exact .none
  · exact hresolved key

/-- A sweep that raises removes nothing and announces nothing. -/
theorem consistent_sweep_raised {d : Deployment} (h : Consistent d) {host : Host}
    {exception : PyErr} {left : SessionRegistry}
    (hrun : (SessionRegistry.sweep host).run d.registry = .error exception left) :
    Consistent ⟨left, d.app⟩ := by
  have hsame := sameActivity_of_related (SessionRegistry.related_of_sweep_raised hrun)
  exact ⟨h.named.of_related hsame, fun app happ => agrees_same (h.agrees app happ) hsame⟩

/-- **Every step keeps the two sides in agreement.** -/
theorem consistent_perform {d : Deployment} (h : Consistent d) {action : Action}
    (hallowed : Allowed action) : Consistent (perform repr floatText d action) := by
  cases action with
  | event host payload now ts moment =>
      obtain ⟨call, left, hrun, hobserved⟩ :=
        @onEvent_observed repr host now d.registry payload hallowed.1 hallowed.2
      unfold perform
      dsimp only
      rw [hrun]
      exact consistent_observed h hobserved ts moment
  | sweep host ts moments =>
      unfold perform
      dsimp only
      cases hrun : (SessionRegistry.sweep host).run d.registry with
      | ok dead left => exact consistent_swept h hrun ts moments
      | error exception left => exact consistent_sweep_raised h hrun
  | tick ts moment =>
      refine ⟨h.named, fun app happ => ?_⟩
      obtain ⟨before, hbefore, rfl⟩ := Option.map_eq_some_iff.mp happ
      exact agrees_of_snapshot floatText h.named moment ts (h.agrees before hbefore).allObjects
  | connect leftover status ts moment =>
      refine ⟨h.named, fun app happ => ?_⟩
      cases happ
      -- the status message leaves the agents alone, the snapshot replaces them
      exact agrees_of_snapshot floatText h.named moment ts hallowed
  | disconnect => exact ⟨h.named, fun app happ => by cases happ⟩
  | ghosts order now =>
      refine ⟨h.named, fun app happ => ?_⟩
      obtain ⟨before, hbefore, rfl⟩ := Option.map_eq_some_iff.mp happ
      intro key
      rw [App.agents_updateGhosts]
      exact h.agrees before hbefore key

theorem consistent_run {start : Deployment} {actions : List Action} (hstart : Consistent start)
    (hallowed : ∀ action ∈ actions, Allowed action) :
    Consistent (run repr floatText start actions) := by
  unfold run
  induction actions generalizing start with
  | nil => exact hstart
  | cons action rest ih =>
      exact ih (consistent_perform repr floatText hstart (hallowed action List.mem_cons_self))
        fun other hother => hallowed other (List.mem_cons_of_mem _ hother)

/-- **Replica agreement.**  Whatever the daemon's registry starts with, after every step of
every run a connected frontend has exactly the sessions of the registry, each with the
state, the label and the time of its record. -/
theorem replica_agrees {registry : SessionRegistry} {actions : List Action}
    (hnamed : Named registry) (hallowed : ∀ action ∈ actions, Allowed action) {app : App}
    (hconnected : (run repr floatText ⟨registry, none⟩ actions).app = some app) :
    Agrees (run repr floatText ⟨registry, none⟩ actions).registry app :=
  (consistent_run repr floatText ⟨hnamed, fun app happ => by cases happ⟩ hallowed).agrees app
    hconnected

/-! ### A reconnection between two crashes -/

/-- A payload of the emitter. -/
def hookPayload (sid name tool : String) : Json :=
  .obj
    [("session_id", .str sid), ("hook_event_name", .str name), ("cwd", .str "/tmp/proj"),
     ("tool_name", .str tool), ("agent_id", .null)]

theorem isHookPayload_hookPayload {sid : String} (hsid : sid ≠ "") (name tool : String) :
    IsHookPayload (hookPayload sid name tool) := by
  refine ⟨_, rfl, ⟨sid, hsid, rfl⟩, fun field hfield => ?_⟩
  simp only [List.mem_cons, List.not_mem_nil, or_false] at hfield
  rcases hfield with rfl | rfl | rfl | rfl | rfl | rfl | rfl
  · exact .inr ⟨name, rfl⟩
  · exact .inr ⟨"/tmp/proj", rfl⟩
  · exact .inr ⟨tool, rfl⟩
  · exact .inl rfl
  · exact .inl rfl
  · exact .inl rfl
  · exact .inl rfl

theorem objectFiles_ofFiles (files : List (List (String × Json))) (alive : Json → Bool) :
    ObjectFiles (.ofFiles files alive) := by
  intro file hfile
  obtain ⟨members, -, rfl⟩ := List.mem_map.mp hfile
  exact .inl ⟨members, rfl⟩

/-- Session `s2` runs in process 100, which is dead. -/
def crashed : Host :=
  .ofFiles [[("sessionId", .str "s2"), ("pid", .int 100)]] fun _ => false

/-- What an earlier daemon told the frontend. -/
def staleSnapshot : Json :=
  .obj [("type", .str "snapshot"), ("agents", .obj [("s3", .obj [])])]

theorem carriesObjects_staleSnapshot : App.CarriesObjects staleSnapshot where
  inAgents agents hagents item hitem := by
    cases hagents
    rw [List.mem_singleton.mp hitem]
    rfl
  inAgent agent hagent := by cases hagent

/-- Two sessions start, a frontend that still shows a third one connects, `s1` asks for
approval, and the reaper finds that `s2` has crashed. -/
def reconnection : List Action :=
  [.event crashed (hookPayload "s1" "SessionStart" "") 1 1 .zero,
   .event crashed (hookPayload "s2" "SessionStart" "") 2 2 .zero,
   .connect (App.history [.message .zero staleSnapshot]) .zero 3 .zero,
   .event crashed (hookPayload "s1" "PermissionRequest" "Bash") 4 4 .zero,
   .sweep crashed (fun _ => 5) fun _ => .zero]

theorem allowed_reconnection : ∀ action ∈ reconnection, Allowed action := by
  have hfiles := objectFiles_ofFiles [[("sessionId", .str "s2"), ("pid", .int 100)]] fun _ => false
  intro action haction
  simp only [reconnection, List.mem_cons, List.not_mem_nil, or_false] at haction
  rcases haction with rfl | rfl | rfl | rfl | rfl
  · exact ⟨isHookPayload_hookPayload (by decide) _ _, hfiles⟩
  · exact ⟨isHookPayload_hookPayload (by decide) _ _, hfiles⟩
  · refine App.allObjects_history fun moment message hmem => ?_
    cases List.mem_singleton.mp hmem
    exact carriesObjects_staleSnapshot
  · exact ⟨isHookPayload_hookPayload (by decide) _ _, hfiles⟩
  · trivial

/-- After it the frontend shows the asking session alone. -/
theorem replica_agrees_reconnection :
    ∃ app, (run (fun _ => .ok "") (fun _ => "") ⟨.fresh, none⟩ reconnection).app = some app ∧
      Agrees (run (fun _ => .ok "") (fun _ => "") ⟨.fresh, none⟩ reconnection).registry app ∧
      app.agents.keys = [.str "s1"] :=
  ⟨_, rfl,
    replica_agrees _ _ (fun _ htracked => absurd rfl htracked) allowed_reconnection rfl, rfl⟩

end Pipeline
end SiliconOffice
