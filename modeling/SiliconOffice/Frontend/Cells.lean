import SiliconOffice.Frontend.Frames
import SiliconOffice.Library.Components

/-!
# What the frontend knows of one session

The collections of the `App`, read under one key: a `Cell`.  Messages and the ends of fade-outs
do to a cell what a small state machine does (`Cell.step`), whatever they do to the others:
`cells_components` says that the state of the frontend is made of such machines.
-/

namespace SiliconOffice
namespace Frontend

open Library Python

/-- What is stored under one key. -/
@[ext]
structure Cell where
  agent : Option Json
  ghost : Option Ghost
  spawnStarted : Option ℚ
  askingSince : Option ℚ

theorem Json.eq_str_of_isText {text : String} {value : Json} (h : value.isText text = true) :
    value = .str text := by
  cases value with
  | str written => exact congrArg Json.str (eq_of_beq h)
  | _ => cases h

theorem Json.eq_str_of_hash {text : String} {value : Json} (h : value.hash = .ok (.str text)) :
    value = .str text := by
  cases value with
  | str written => exact congrArg Json.str (DictKey.str.inj (Except.ok.inj h))
  | _ => cases h

namespace Cell

/-- A session that nobody has heard of. -/
def absent : Cell where
  agent := none
  ghost := none
  spawnStarted := none
  askingSince := none

/-- An agent or a ghost is there. -/
def shown (cell : Cell) : Bool :=
  cell.agent.isSome || cell.ghost.isSome

/-- The agent is asking. -/
def asking (cell : Cell) : Bool :=
  cell.agent.any App.asks

/-- The agent is heard of. -/
def upsert (now : ℚ) (agent : Json) (cell : Cell) : Cell where
  agent := some agent
  ghost := none
  spawnStarted := if cell.shown then cell.spawnStarted else some now
  askingSince := if App.asks agent && !cell.asking then some now else cell.askingSince

/-- The agent is gone. -/
def despawn (at' : ℚ) (cell : Cell) : Cell :=
  match cell.agent with
  | none => cell
  | some agent =>
      { agent := none
        ghost := some ⟨agent, at'⟩
        spawnStarted := none
        askingSince := none }

/-- The end of a fade-out. -/
def fade (now : ℚ) (cell : Cell) : Cell :=
  { cell with
    ghost := cell.ghost.filter fun ghost =>
      !decide (now - ghost.despawnStarted ≥ despawnAnimSeconds) }

@[simp] theorem despawn_despawn (first second : ℚ) (cell : Cell) :
    (cell.despawn first).despawn second = cell.despawn first := by
  obtain ⟨agent, ghost, spawnStarted, askingSince⟩ := cell
  cases agent <;> rfl

theorem despawn_of_none {cell : Cell} (h : cell.agent = none) (at' : ℚ) :
    cell.despawn at' = cell := by
  unfold despawn
  rw [h]

/-- A message, as far as it is about this session. -/
def handle (moment : Moment) (name : String) (message : Json) (cell : Cell) : Cell :=
  let field := fun key => (message.get? key).getD .null
  if (field "type").isText "snapshot" then
    match (message.get? "agents").getD (.obj []) with
    | .obj agents =>
        match agents.lookup name with
        | some agent => cell.upsert moment.now agent
        | none => cell.despawn (moment.despawnedAt (.str name))
    | _ => cell
  else if (field "type").isText "diff" && (field "session_id").isText name && name != "" then
    if (field "op").isText "upsert" then
      cell.upsert moment.now ((message.get? "agent").getD (.obj []))
    else if (field "op").isText "remove" then cell.despawn (moment.despawnedAt (.str name))
    else cell
  else cell

/-- An update of the frontend, as far as it is about this session. -/
def step (name : String) (cell : Cell) : App.Update → Cell
  | .message moment message => cell.handle moment name message
  | .ghosts _ now => cell.fade now

end Cell

namespace App

/-- What is stored under the name of a session. -/
def cell (name : String) (app : App) : Cell where
  agent := app.agents.get? (.str name)
  ghost := app.ghosts.get? (.str name)
  spawnStarted := app.spawnStarted.get? (.str name)
  askingSince := app.askingSince.get? (.str name)

variable {app : App} {moment : Moment} {name : String} {key : DictKey}

/-! ## The updates that messages come to -/

/-- An upsert between objects, with the states that it reads. -/
theorem run_upsertAgent_objects {sessionId agent : Json} (hkey : sessionId.hash = .ok key)
    (happ : AllObjects app) (hagent : agent.isObject = true) :
    (upsertAgent moment sessionId agent).run app = .ok () (upserted moment key agent
      ((((app.agents.get? key).getD (.obj [])).get? "state").getD .null)
      ((agent.get? "state").getD .null) app) := by
  have hold : ((app.agents.get? key).getD (.obj [])).isObject = true := by
    cases hget : app.agents.get? key with
    | none => rfl
    | some value => exact happ key value hget
  rw [run_upsertAgent hkey, Json.get_of_isObject hold, Json.get_of_isObject hagent]

theorem cell_upserted_same {agent : Json} :
    (upserted moment (.str name) agent
      ((((app.agents.get? (.str name)).getD (.obj [])).get? "state").getD .null)
      ((agent.get? "state").getD .null) app).cell name =
        (app.cell name).upsert moment.now agent := by
  have hself : (DictKey.str name == .str name) = true := BEq.refl _
  apply Cell.ext
  · show (app.agents.store _ _).get? _ = _
    rw [OrderedDict.get?_store, if_pos hself]
    rfl
  · show (app.ghosts.discard _).get? _ = _
    rw [OrderedDict.get?_discard, if_pos hself]
    rfl
  · show OrderedDict.get? (if _ then _ else _) _ = _
    unfold Cell.upsert Cell.shown cell OrderedDict.has
    dsimp only
    cases app.agents.get? (.str name) <;> cases app.ghosts.get? (.str name) <;> simp
  · show OrderedDict.get? (if asks agent && !Json.isText stateAsking _ then _ else _) _ = _
    have hprevious : ((((app.agents.get? (.str name)).getD (.obj [])).get? "state").getD
        .null).isText stateAsking = (app.cell name).asking := by
      unfold Cell.asking cell asks
      cases app.agents.get? (.str name) <;> rfl
    rw [hprevious]
    unfold Cell.upsert
    split
    · exact (OrderedDict.get?_store ..).trans (if_pos hself)
    · rfl

/-- An upsert leaves the other sessions alone. -/
theorem cell_upserted_other {agent previous state : Json} (hother : (.str name == key) = false) :
    (upserted moment key agent previous state app).cell name = app.cell name := by
  have hne := ne_true_of_eq_false hother
  apply Cell.ext
  · show (app.agents.store _ _).get? _ = _
    rw [OrderedDict.get?_store, if_neg hne]
    rfl
  · show (app.ghosts.discard _).get? _ = _
    rw [OrderedDict.get?_discard, if_neg hne]
    rfl
  · show OrderedDict.get? (if _ then _ else _) _ = _
    split
    · rw [OrderedDict.get?_store, if_neg hne]
      rfl
    · rfl
  · show OrderedDict.get? (if _ then _ else _) _ = _
    split
    · rw [OrderedDict.get?_store, if_neg hne]
      rfl
    · rfl

theorem cell_despawned (happ : AllObjects app) (key : DictKey) :
    (despawned moment key app).cell name =
      if .str name == key then (app.cell name).despawn (moment.despawnedAt key)
      else app.cell name := by
  cases hget : app.agents.get? key with
  | none =>
      have hdespawned : despawned moment key app = app := by
        unfold despawned
        rw [hget]
      rw [hdespawned]
      split
      · rename_i hsame
        unfold Cell.despawn cell
        dsimp only
        rw [app.agents.get?_congr hsame, hget]
      · rfl
  | some agent =>
      rw [despawned_of_get? hget (happ key agent hget)]
      cases hsame : DictKey.str name == key with
      | true =>
          have hagent : app.agents.get? (.str name) = some agent := by
            rw [app.agents.get?_congr hsame, hget]
          rw [if_pos rfl]
          unfold Cell.despawn
          rw [show (app.cell name).agent = some agent from hagent]
          apply Cell.ext
          · exact (OrderedDict.get?_discard ..).trans (if_pos hsame)
          · exact (OrderedDict.get?_store ..).trans (if_pos hsame)
          · exact (OrderedDict.get?_discard ..).trans (if_pos hsame)
          · exact (OrderedDict.get?_discard ..).trans (if_pos hsame)
      | false =>
          have hne := ne_true_of_eq_false hsame
          rw [if_neg Bool.false_ne_true]
          apply Cell.ext
          · exact (OrderedDict.get?_discard ..).trans (if_neg hne)
          · exact (OrderedDict.get?_store ..).trans (if_neg hne)
          · exact (OrderedDict.get?_discard ..).trans (if_neg hne)
          · exact (OrderedDict.get?_discard ..).trans (if_neg hne)

theorem contains_finished (now : ℚ) (key : DictKey) :
    (app.finished now).contains key = (app.ghosts.get? key).any fun ghost =>
      decide (now - ghost.despawnStarted ≥ despawnAnimSeconds) := by
  rw [Bool.eq_iff_iff, List.contains_iff_exists_mem_beq, Option.any_eq_true]
  unfold finished
  constructor
  · rintro ⟨other, hother, hsame⟩
    obtain ⟨item, hitem, rfl⟩ := List.mem_map.mp hother
    obtain ⟨hmem, hover⟩ := List.mem_filter.mp hitem
    refine ⟨item.2, ?_, hover⟩
    rw [app.ghosts.get?_congr hsame]
    exact OrderedDict.get?_of_mem hmem
  · rintro ⟨ghost, hget, hover⟩
    obtain ⟨item, hitem, hsame, rfl⟩ := OrderedDict.get?_eq_some_iff.mp hget
    exact ⟨item.1, List.mem_map_of_mem (List.mem_filter.mpr ⟨hitem, hover⟩), BEq.symm hsame⟩

theorem cell_updateGhosts (order : SetOrder) (now : ℚ) :
    (app.updateGhosts order now).cell name = (app.cell name).fade now := by
  have hghosts : (app.updateGhosts order now).ghosts =
      (app.finished now).foldl OrderedDict.discard app.ghosts := by
    unfold updateGhosts
    dsimp only
    split <;> rfl
  have hspawn : (app.updateGhosts order now).spawnStarted = app.spawnStarted := by
    unfold updateGhosts
    dsimp only
    split <;> rfl
  have hasking : (app.updateGhosts order now).askingSince = app.askingSince := by
    unfold updateGhosts
    dsimp only
    split <;> rfl
  unfold cell Cell.fade
  rw [agents_updateGhosts, hghosts, hspawn, hasking, OrderedDict.get?_foldl_discard,
    contains_finished]
  cases app.ghosts.get? (.str name) with
  | none => rfl
  | some ghost =>
      by_cases hover : now - ghost.despawnStarted ≥ despawnAnimSeconds <;>
        simp [Option.filter, hover]

/-! ## Snapshots -/

theorem cell_upsertAll {agents : List (String × Json)} (happ : AllObjects app)
    (hagents : ∀ item ∈ agents, item.2.isObject = true)
    (hdistinct : (agents.map Prod.fst).Nodup) :
    ∃ app', (upsertAll moment agents).run app = .ok () app' ∧ AllObjects app' ∧
      ∀ name, app'.cell name =
        match agents.lookup name with
        | some agent => (app.cell name).upsert moment.now agent
        | none => app.cell name := by
  induction agents generalizing app with
  | nil => exact ⟨app, rfl, happ, fun name => rfl⟩
  | cons head rest ih =>
      obtain ⟨sid, agent⟩ := head
      obtain ⟨hfresh, hrest⟩ := List.nodup_cons.mp hdistinct
      have hagent : agent.isObject = true := hagents (sid, agent) List.mem_cons_self
      have hrun := @run_upsertAgent_objects app moment (.str sid) (.str sid) agent rfl happ hagent
      obtain ⟨final, hfinal, hobjects, hcells⟩ := ih
        ((preserved_allObjects moment).upsert app (.str sid) agent _ _ happ hagent)
        (fun item hitem => hagents item (List.mem_cons_of_mem _ hitem)) hrest
      refine ⟨final, ?_, hobjects, fun name => ?_⟩
      · unfold upsertAll
        rw [EStateM.run_bind, hrun]
        exact hfinal
      · rw [hcells name, Assoc.lookup_cons_ite]
        cases hsame : name == sid with
        | true =>
            obtain rfl := eq_of_beq hsame
            have hnone : rest.lookup name = none := named_eq_none hfresh
            rw [hnone, if_pos rfl, cell_upserted_same]
        | false =>
            rw [if_neg Bool.false_ne_true,
              cell_upserted_other (by rw [DictKey.str_beq_str]; exact hsame)]

theorem cell_despawnMissing (agents : List (String × Json)) (sids : List DictKey)
    (happ : AllObjects app) :
    ∃ app', (despawnMissing moment agents sids).run app = .ok () app' ∧ AllObjects app' ∧
      ∀ name, app'.cell name =
        if sids.contains (.str name) && (agents.lookup name).isNone then
          (app.cell name).despawn (moment.despawnedAt (.str name))
        else app.cell name := by
  induction sids generalizing app with
  | nil => exact ⟨app, rfl, happ, fun name => rfl⟩
  | cons sid rest ih =>
      unfold despawnMissing
      cases hnamed : (named agents sid).isNone with
      | false =>
          obtain ⟨final, hfinal, hobjects, hcells⟩ := ih happ
          refine ⟨final, ?_, hobjects, fun name => ?_⟩
          · rw [if_neg Bool.false_ne_true]
            exact hfinal
          · rw [hcells name, List.contains_cons]
            cases hsame : DictKey.str name == sid with
            | false => rfl
            | true =>
                -- this session is named, so that it is not dropped
                rw [DictKey.beq_str_iff.mp (BEq.symm hsame)] at hnamed
                have hlookup : (agents.lookup name).isNone = false := hnamed
                rw [hlookup, Bool.and_false, Bool.and_false]
      | true =>
          obtain ⟨final, hfinal, hobjects, hcells⟩ :=
            ih ((preserved_allObjects moment).despawn app sid happ)
          refine ⟨final, ?_, hobjects, fun name => ?_⟩
          · rw [if_pos rfl, EStateM.run_bind, run_startDespawn (Json.hash_toJson sid)]
            exact hfinal
          · rw [hcells name, cell_despawned happ, List.contains_cons]
            cases hsame : DictKey.str name == sid with
            | false => rfl
            | true =>
                obtain rfl := DictKey.beq_str_iff.mp (BEq.symm hsame)
                have hlookup : (agents.lookup name).isNone = true := hnamed
                rw [hlookup, Bool.true_or, if_pos rfl, Cell.despawn_despawn, ite_self]
                rfl

/-- A snapshot upserts the session or drops it. -/
theorem cell_applySnapshot {agents : List (String × Json)} (happ : AllObjects app)
    (hagents : ∀ item ∈ agents, item.2.isObject = true)
    (hdistinct : (agents.map Prod.fst).Nodup) (name : String) :
    (after ((applySnapshot moment agents).run app)).cell name =
      match agents.lookup name with
      | some agent => (app.cell name).upsert moment.now agent
      | none => (app.cell name).despawn (moment.despawnedAt (.str name)) := by
  obtain ⟨middle, hmiddle, hobjects, hupserted⟩ := cell_upsertAll happ hagents hdistinct
  obtain ⟨final, hfinal, -, hdespawned⟩ :=
    cell_despawnMissing agents middle.agents.keys hobjects
  rw [run_applySnapshot_ok hmiddle, hfinal, after_ok, hdespawned name, hupserted name]
  cases hlookup : agents.lookup name with
  | some agent =>
      rw [Option.isNone_some, Bool.and_false]
      rfl
  | none =>
      rw [Option.isNone_none, Bool.and_true, OrderedDict.contains_keys]
      cases hhas : middle.agents.has (.str name) with
      | true => rfl
      | false =>
          -- there is nothing to drop
          have hsame : middle.cell name = app.cell name := by rw [hupserted name, hlookup]
          have hnone : (app.cell name).agent = none := by
            rw [← hsame]
            exact Option.not_isSome_iff_eq_none.mp (ne_true_of_eq_false hhas)
          exact (Cell.despawn_of_none hnone _).symm

/-! ## All updates -/

/-- **A message does to each session what the machine of that session does.** -/
theorem cell_handleMessage {message : Json} (happ : AllObjects app) (hmessage : WellFormed message)
    (name : String) :
    (after ((handleMessage moment message).run app)).cell name =
      (app.cell name).handle moment name message := by
  have hagent : ((message.get? "agent").getD (.obj [])).isObject = true := by
    cases hget : message.get? "agent" with
    | none => rfl
    | some agent => exact hmessage.carries.inAgent agent hget
  have hkey : ∃ key, ((message.get? "session_id").getD .null).hash = .ok key := by
    cases hget : message.get? "session_id" with
    | none => exact ⟨.null, rfl⟩
    | some value => exact hmessage.sessionId value hget
  obtain ⟨key, hkey⟩ := hkey
  have hdistinct := hmessage.distinct
  rw [run_handleMessage hmessage.object]
  unfold Cell.handle
  dsimp only
  by_cases hconn : ((message.get? "type").getD .null).isText "_conn_status" = true
  · simp only [Json.eq_str_of_isText hconn]
    rfl
  · rw [if_neg hconn]
    by_cases hsnapshot : ((message.get? "type").getD .null).isText "snapshot" = true
    · rw [if_pos hsnapshot, if_pos hsnapshot]
      cases hagents : message.get? "agents" with
      | none =>
          exact @cell_applySnapshot app moment [] happ (fun item hitem => by cases hitem)
            List.nodup_nil name
      | some value =>
          obtain ⟨agents, rfl⟩ := Json.isObject_iff.mp (hmessage.agents value hagents)
          exact cell_applySnapshot happ (hmessage.carries.inAgents agents hagents)
            (hmessage.distinct agents hagents) name
    · rw [if_neg hsnapshot, if_neg hsnapshot]
      by_cases hdiff : ((message.get? "type").getD .null).isText "diff" = true
      · rw [if_pos hdiff, hdiff, Bool.true_and]
        by_cases hname : ((message.get? "session_id").getD .null).isText name = true
        · have hsession := Json.eq_str_of_isText hname
          have htruthy : (Json.str name).truthy = (name != "") := rfl
          have hself : (Json.str name).isText name = true := beq_self_eq_true name
          rw [hsession] at hkey
          cases hkey
          simp only [hsession, htruthy, hself, Bool.true_and]
          cases hempty : name != "" with
          | false =>
              rw [Bool.and_false, Bool.and_false, if_neg Bool.false_ne_true,
                if_neg Bool.false_ne_true, if_neg Bool.false_ne_true]
              rfl
          | true =>
              rw [Bool.and_true, Bool.and_true, if_pos rfl]
              split
              · rw [run_upsertAgent_objects rfl happ hagent]
                exact cell_upserted_same
              · split
                · rw [@run_startDespawn moment (.str name) (.str name) app rfl, after_ok,
                    cell_despawned happ, if_pos (BEq.refl _)]
                · rfl
        · have hother : (DictKey.str name == key) = false := by
            refine eq_false_of_ne_true fun hsame => ?_
            rw [DictKey.beq_str_iff.mp (BEq.symm hsame)] at hkey
            rw [Json.eq_str_of_hash hkey] at hname
            exact hname (beq_self_eq_true name)
          rw [eq_false_of_ne_true hname, Bool.false_and, if_neg Bool.false_ne_true]
          split
          · rw [run_upsertAgent_objects hkey happ hagent]
            exact cell_upserted_other hother
          · split
            · rw [run_startDespawn hkey, after_ok, cell_despawned happ,
                if_neg (ne_true_of_eq_false hother)]
            · rfl
      · rw [if_neg hdiff, eq_false_of_ne_true hdiff]
        rfl

end App

/-! ## The frontend as a family of machines -/

/-- A state in which all agents are objects. -/
abbrev Office := { app : App // App.AllObjects app }

/-- An update that is no malformed message. -/
def App.Update.WellFormed (update : App.Update) : Prop :=
  ∀ moment message, update = .message moment message → App.WellFormed message

namespace Office

/-- The updates of the frontend, between states whose agents are objects. -/
def perform (office : Office) (update : { update : App.Update // update.WellFormed }) : Office :=
  ⟨office.1.perform update.1, App.allObjects_perform office.2 update.2⟩

/-- Whether an update is about the session: a snapshot is about all of them. -/
def concerns (name : String) (update : { update : App.Update // update.WellFormed }) : Bool :=
  match update.1 with
  | .message _ message =>
      ((message.get? "type").getD .null).isText "snapshot" ||
        ((message.get? "session_id").getD .null).isText name
  | .ghosts _ _ => true

/-- **The frontend is made of one machine for each session.** -/
theorem cells_components :
    Components perform (fun _ => True) (fun name (office : Office) => office.1.cell name)
      (fun name cell update => cell.step name update.1) concerns where
  follows name office update _ := by
    obtain ⟨update, hupdate⟩ := update
    cases update with
    | message moment message =>
        exact App.cell_handleMessage office.2 (hupdate moment message rfl) name
    | ghosts order now => exact App.cell_updateGhosts order now
  ignores name cell update hconcerns := by
    obtain ⟨update, hupdate⟩ := update
    cases update with
    | message moment message =>
        obtain ⟨htype, hname⟩ := Bool.or_eq_false_iff.mp hconcerns
        show cell.handle moment name message = cell
        unfold Cell.handle
        simp only [htype, hname, Bool.and_false, Bool.false_and]
        rfl
    | ghosts order now => cases hconcerns

/-- **Sessions are shown apart.**  What the frontend knows of a session, its agent, its ghost and
its timers, depends on the updates that are about it and on nothing else: whatever happens to
the others in between, in whatever order. -/
theorem sessions_shown_apart (office : Office) (name : String)
    (updates others : List { update : App.Update // update.WellFormed })
    (hsame : updates.filter (concerns name) = others.filter (concerns name)) :
    (updates.foldl perform office).1.cell name = (others.foldl perform office).1.cell name :=
  cells_components.view_congr (fun _ _ => trivial) (fun _ _ => trivial) name office hsame

/-! ### Two sessions -/

def upsertDiff (sid : String) : Json :=
  .obj [("type", .str "diff"), ("session_id", .str sid), ("op", .str "upsert")]

theorem wellFormed_upsertDiff (sid : String) : App.WellFormed (upsertDiff sid) := by
  refine ⟨rfl, ⟨fun agents hagents => ?_, fun agent hagent => ?_⟩, fun value hvalue => ?_,
    fun agents hagents => ?_, fun value hvalue => ?_⟩
  · cases hagents
  · cases hagent
  · cases hvalue
  · cases hagents
  · cases hvalue
    exact ⟨.str sid, rfl⟩

def upserted (sid : String) : { update : App.Update // update.WellFormed } :=
  ⟨.message .zero (upsertDiff sid), fun moment message hsame => by
    cases hsame
    exact wellFormed_upsertDiff sid⟩

def nobody : Office :=
  ⟨.initial, fun key value hget => by cases hget⟩

theorem sessions_shown_apart_second :
    ([upserted "s1", upserted "s2"].foldl perform nobody).1.cell "s2" =
      ([upserted "s2", upserted "s1", upserted "s1"].foldl perform nobody).1.cell "s2" :=
  sessions_shown_apart nobody "s2" [upserted "s1", upserted "s2"]
    [upserted "s2", upserted "s1", upserted "s1"] rfl

end Office

namespace App

variable {app : App} {updates : List Update}

theorem cell_foldl (happ : AllObjects app) (hupdates : ∀ update ∈ updates, update.WellFormed)
    (name : String) :
    (updates.foldl perform app).cell name = updates.foldl (Cell.step name) (app.cell name) := by
  induction updates generalizing app with
  | nil => rfl
  | cons update rest ih =>
      have hupdate := hupdates update List.mem_cons_self
      have hstep : (app.perform update).cell name = (app.cell name).step name update :=
        Office.cells_components.follows name ⟨app, happ⟩ ⟨update, hupdate⟩ trivial
      rw [List.foldl_cons, List.foldl_cons, ← hstep]
      exact ih (allObjects_perform happ hupdate)
        fun other hother => hupdates other (List.mem_cons_of_mem _ hother)

end App

end Frontend
end SiliconOffice
