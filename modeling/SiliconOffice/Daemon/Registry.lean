import SiliconOffice.Daemon.StateMachine

/-!
# The session registry

The daemon's single source of truth: one record per session id.  Records are live
objects, so an event that raises half-way leaves its edits in a record that the
registry holds (`edited`), and in none when the record is new.

The registry asks the host two things: what the session files hold (in `glob` order,
each file's content or the exception that reading it raises) and what `os.kill(pid, 0)`
does.
-/

namespace SiliconOffice
namespace Daemon

open Library Python Common

/-- What the registry asks of the machine it runs on. -/
structure Host where
  /-- `json.loads(path.read_text())` for every `sessions/*.json`, in `glob` order. -/
  sessionFiles : List (Except PyErr Json)
  /-- `os.kill(pid, 0)`. -/
  kill : Json → Except PyErr Unit

/-! ## Session files and processes -/

/-- `is_pid_alive`. -/
def isPidAlive (kill : Json → Except PyErr Unit) (pid : Json) : Except PyErr Bool :=
  if pid.truthy then
    match kill pid with
    | .ok () => .ok true
    | .error .processLookupError => .ok false
    -- the process exists, it is just not ours to signal
    | .error .permissionError => .ok true
    | .error exception => if exception.isOSError then .ok false else .error exception
  else .ok false

/-- `_read_session_files`: `OSError` and `JSONDecodeError` skip a file, anything else
propagates. -/
def readSessionFiles : List (Except PyErr Json) → Except PyErr (List Json)
  | [] => .ok []
  | .ok data :: rest => do
      let others ← readSessionFiles rest
      .ok (data :: others)
  | .error exception :: rest =>
      if exception.isOSError || exception = .jsonDecodeError then readSessionFiles rest
      else .error exception

/-- The loop of `find_session_file`: the first file with that `sessionId`. -/
def firstNaming (sessionId : Json) : List Json → Except PyErr (Option Json)
  | [] => .ok none
  | data :: rest => do
      let named ← data.get "sessionId" .null
      if named.equals sessionId then .ok (some data) else firstNaming sessionId rest

def findSessionFile (files : List (Except PyErr Json)) (sessionId : Json) :
    Except PyErr (Option Json) := do
  let all ← readSessionFiles files
  firstNaming sessionId all

/-- The comprehension of `list_live_sessions`. -/
def liveAmong (kill : Json → Except PyErr Unit) : List Json → Except PyErr (List Json)
  | [] => .ok []
  | data :: rest => do
      let pid ← data.get "pid" .null
      let alive ← isPidAlive kill pid
      let others ← liveAmong kill rest
      .ok (if alive then data :: others else others)

def listLiveSessions (host : Host) : Except PyErr (List Json) := do
  let all ← readSessionFiles host.sessionFiles
  liveAmong host.kill all

/-! ## The registry -/

@[ext]
structure SessionRegistry where
  agents : OrderedDict DictKey AgentRecord

namespace SessionRegistry

def fresh : SessionRegistry := ⟨.empty⟩

/-- `self._agents[key] = record`. -/
def store (key : DictKey) (record : AgentRecord) (registry : SessionRegistry) :
    SessionRegistry :=
  ⟨registry.agents.store key record⟩

/-- `self._agents.pop(key, None)`. -/
def discard (registry : SessionRegistry) (key : DictKey) : SessionRegistry :=
  ⟨registry.agents.discard key⟩

def get? (registry : SessionRegistry) (key : DictKey) : Option AgentRecord :=
  registry.agents.get? key

/-- `seed`. -/
def seed (record : AgentRecord) : EStateM PyErr SessionRegistry Unit := do
  let key ← raising record.sessionId.hash
  modify (store key record)

end SessionRegistry

/-- Run a method on a record object.  When the object is the one the registry holds
under `key`, its edits show in the registry, also when the method raises. -/
def edited {α : Type} (held : Bool) (key : DictKey) (record : AgentRecord)
    (method : EStateM PyErr AgentRecord α) :
    EStateM PyErr SessionRegistry (α × AgentRecord) := fun registry =>
  match method.run record with
  | .ok value object =>
      .ok (value, object) (if held then registry.store key object else registry)
  | .error exception object =>
      .error exception (if held then registry.store key object else registry)

theorem run_edited {α : Type} (held : Bool) (key : DictKey) (record : AgentRecord)
    (method : EStateM PyErr AgentRecord α) (registry : SessionRegistry) :
    (edited held key record method).run registry =
      match method.run record with
      | .ok value object =>
          .ok (value, object) (if held then registry.store key object else registry)
      | .error exception object =>
          .error exception (if held then registry.store key object else registry) := rfl

/-- The assignments of `_resolve_identity` from a session file. -/
def identify (info : Json) (record : AgentRecord) : AgentRecord :=
  let name := (info.get? "name").getD .null
  { record with
    pid := (info.get? "pid").getD .null
    entrypoint := (info.get? "entrypoint").getD record.entrypoint
    projectName := if name.truthy then name else record.projectName }

/-- `_resolve_identity`. -/
def resolveIdentity (host : Host) : EStateM PyErr AgentRecord Unit := do
  let record ← get
  if record.pid.isNone then
    match ← raising (findSessionFile host.sessionFiles record.sessionId) with
    | some info => if info.truthy then modify (identify info)
    | none => pure ()

namespace SessionRegistry

variable (repr : Json → Except PyErr String)

/-- `SessionRegistry.apply_event`. -/
def applyEvent (host : Host) (event : HookEvent) (now : ℚ) :
    EStateM PyErr SessionRegistry (Option AgentRecord × Op) := do
  let key ← raising event.sessionId.hash
  let registry ← get
  let existing := registry.agents.get? key
  let object ← match existing with
    | some record => pure record
    | none => raising (newRecord event now)
  -- the live record is edited in place, a new one is not in the registry yet
  let (op, record) ← edited existing.isSome key object
    (transition repr existing.isNone event now)
  match op with
  | .remove =>
      modify fun registry => registry.discard key
      return (none, .remove)
  | .upsert =>
      let ((), record) ← edited existing.isSome key record (resolveIdentity host)
      modify (store key record)
      return (some record, .upsert)
  | .noop => return (some record, .noop)

/-- The loop of `resolve_pending_identities`. -/
def resolveAll (host : Host) : List DictKey → EStateM PyErr SessionRegistry Unit
  | [] => pure ()
  | key :: rest => do
      let registry ← get
      match registry.agents.get? key with
      | some record =>
          let _ ← edited true key record (resolveIdentity host)
          resolveAll host rest
      | none => resolveAll host rest

def resolvePendingIdentities (host : Host) : EStateM PyErr SessionRegistry Unit := do
  let registry ← get
  resolveAll host registry.agents.keys

/-- The comprehension of `reap_dead`. -/
def deadAmong (kill : Json → Except PyErr Unit) :
    List (DictKey × AgentRecord) → Except PyErr (List DictKey)
  | [] => .ok []
  | (sid, record) :: rest => do
      -- records without a pid are never reaped
      let alive ← if record.pid.isNone then .ok true else isPidAlive kill record.pid
      let others ← deadAmong kill rest
      .ok (if alive then others else sid :: others)

/-- `reap_dead`. -/
def reapDead (host : Host) : EStateM PyErr SessionRegistry (List DictKey) := do
  let registry ← get
  let dead ← raising (deadAmong host.kill registry.agents.items)
  set (dead.foldl discard registry)
  return dead

/-- What the reaper does to the registry in one sweep. -/
def sweep (host : Host) : EStateM PyErr SessionRegistry (List DictKey) := do
  resolvePendingIdentities host
  reapDead host

end SessionRegistry

/-! ## What the methods can do -/

/-- What `_resolve_identity` makes of a record. -/
def resolved (host : Host) (record : AgentRecord) : Except PyErr AgentRecord :=
  if record.pid.isNone then
    match findSessionFile host.sessionFiles record.sessionId with
    | .error exception => .error exception
    | .ok none => .ok record
    | .ok (some info) => .ok (if info.truthy then identify info record else record)
  else .ok record

/-- `_resolve_identity` raises before it assigns anything. -/
theorem run_resolveIdentity (host : Host) (record : AgentRecord) :
    (resolveIdentity host).run record =
      match resolved host record with
      | .ok object => .ok () object
      | .error exception => .error exception record := by
  unfold resolveIdentity resolved
  rw [EStateM.run_bind, EStateM.run_get]
  dsimp only
  by_cases hpid : record.pid.isNone = true
  · rw [if_pos hpid, if_pos hpid, EStateM.run_bind]
    cases findSessionFile host.sessionFiles record.sessionId with
    | error exception => rfl
    | ok found =>
        cases found with
        | none => rfl
        | some info =>
            dsimp only [run_raising_ok]
            by_cases hinfo : info.truthy = true
            · rw [if_pos hinfo, if_pos hinfo]
              rfl
            · rw [if_neg hinfo, if_neg hinfo]
              rfl
  · rw [if_neg hpid, if_neg hpid]
    rfl

theorem resolved_error_iff {host : Host} {record : AgentRecord} {exception : PyErr} :
    resolved host record = .error exception ↔
      record.pid.isNone = true ∧
        findSessionFile host.sessionFiles record.sessionId = .error exception := by
  unfold resolved
  by_cases hpid : record.pid.isNone = true
  · rw [if_pos hpid]
    cases findSessionFile host.sessionFiles record.sessionId with
    | error other => simp [hpid]
    | ok found => cases found <;> simp
  · rw [if_neg hpid]
    simp [hpid]

namespace SessionRegistry

@[simp] theorem store_store (registry : SessionRegistry) (key : DictKey)
    (first second : AgentRecord) :
    (registry.store key first).store key second = registry.store key second :=
  SessionRegistry.ext (OrderedDict.store_store ..)

@[simp] theorem discard_store (registry : SessionRegistry) (key : DictKey)
    (record : AgentRecord) :
    (registry.store key record).discard key = registry.discard key :=
  SessionRegistry.ext (OrderedDict.discard_store ..)

theorem store_of_get? {registry : SessionRegistry} {key : DictKey} {record : AgentRecord}
    (h : registry.get? key = some record) : registry.store key record = registry :=
  SessionRegistry.ext (OrderedDict.store_of_get? h)

@[simp] theorem get?_store (registry : SessionRegistry) (key other : DictKey)
    (record : AgentRecord) :
    (registry.store key record).get? other =
      if other == key then some record else registry.get? other :=
  OrderedDict.get?_store ..

@[simp] theorem get?_discard (registry : SessionRegistry) (key other : DictKey) :
    (registry.discard key).get? other =
      if other == key then none else registry.get? other :=
  OrderedDict.get?_discard ..

variable {repr : Json → Except PyErr String} {host : Host} {event : HookEvent} {now : ℚ}
  {registry : SessionRegistry} {key : DictKey}

/-- An unhashable session id is rejected before anything else. -/
theorem run_applyEvent_unhashable {exception : PyErr}
    (hkey : event.sessionId.hash = .error exception) :
    (applyEvent repr host event now).run registry = .error exception registry := by
  unfold applyEvent
  rw [hkey]
  rfl

/-- `apply_event` on a tracked session: the edits of the live record show in the
registry whatever happens after them. -/
theorem run_applyEvent_tracked {record : AgentRecord}
    (hkey : event.sessionId.hash = .ok key) (htracked : registry.get? key = some record) :
    (applyEvent repr host event now).run registry =
      match (transition repr false event now).run record with
      | .error exception object => .error exception (registry.store key object)
      | .ok .remove _ => .ok (none, .remove) (registry.discard key)
      | .ok .noop object => .ok (some object, .noop) (registry.store key object)
      | .ok .upsert object =>
          match resolved host object with
          | .error exception => .error exception (registry.store key object)
          | .ok final => .ok (some final, .upsert) (registry.store key final) := by
  have htracked' : registry.agents.get? key = some record := htracked
  unfold applyEvent
  simp only [hkey, EStateM.run_bind, run_raising_ok, EStateM.run_get, htracked',
    Option.isSome_some, Option.isNone_some, EStateM.run_pure, run_edited, if_true]
  cases (transition repr false event now).run record with
  | error exception object => rfl
  | ok op object =>
      cases op with
      | remove =>
          simp only [EStateM.run_bind, EStateM.run_modify, EStateM.run_pure, discard_store]
      | noop => rfl
      | upsert =>
          simp only [EStateM.run_bind, run_edited, run_resolveIdentity, if_true]
          cases resolved host object with
          | error exception => simp only [store_store]
          | ok final => simp only [EStateM.run_modify, EStateM.run_pure, store_store]

/-- `apply_event` on a session that is not tracked works on a record of its own, which
the registry holds only once everything has gone well. -/
theorem run_applyEvent_new (hkey : event.sessionId.hash = .ok key)
    (hnew : registry.get? key = none) :
    (applyEvent repr host event now).run registry =
      match newRecord event now with
      | .error exception => .error exception registry
      | .ok record =>
          match (transition repr true event now).run record with
          | .error exception _ => .error exception registry
          | .ok .remove _ => .ok (none, .remove) (registry.discard key)
          | .ok .noop object => .ok (some object, .noop) registry
          | .ok .upsert object =>
              match resolved host object with
              | .error exception => .error exception registry
              | .ok final => .ok (some final, .upsert) (registry.store key final) := by
  have hnew' : registry.agents.get? key = none := hnew
  unfold applyEvent
  simp only [hkey, EStateM.run_bind, run_raising_ok, EStateM.run_get, hnew',
    Option.isSome_none, Option.isNone_none, run_edited, Bool.false_eq_true, if_false]
  cases newRecord event now with
  | error exception => rfl
  | ok record =>
      simp only [run_raising_ok]
      cases (transition repr true event now).run record with
      | error exception object => rfl
      | ok op object =>
          cases op with
          | remove => rfl
          | noop => rfl
          | upsert =>
              simp only [EStateM.run_bind, run_edited, run_resolveIdentity,
                Bool.false_eq_true, if_false]
              cases resolved host object <;> rfl

end SessionRegistry

end Daemon
end SiliconOffice
