import Mathlib.Data.List.Perm.Basic
import Mathlib.Logic.Function.Basic
import SiliconOffice.Daemon.Sweep
import SiliconOffice.Daemon.UdpListener

/-!
# The daemon's tasks on the event loop

One `broadcast_diff` task per event, one `handle_client` task per connection, the
reaper's loop and the snapshot loop.  Tasks switch only where they suspend, and the only
awaits that suspend are timers and `drain()`, so an action is what one task does from one
such point to the next: at most one `writer.write`, then the `drain()` after it.  A
`drain()` that does not suspend is one that returns at once.

Tasks start in the order in which they were scheduled, the set of clients is copied in an
arbitrary order, and a drain returns after any number of other actions.  While the reaper
still has sessions to announce and is not suspended in a drain nobody else runs
(`reaperRuns`).

`changes`, `joined`, `begun` and the stamps and serials on messages are a record of the
run that the code does not keep: which registry changes there were, what each message was
built from, which broadcast it belongs to.
-/

namespace SiliconOffice
namespace Daemon

open Library Python Common

/-- A connected `StreamWriter`, numbered in the order of the connections. -/
abbrev Writer := Nat

/-- An upsert or a remove made by the registry. -/
structure Change where
  key : DictKey
  op : Op

/-- What a message was built from: one registry change, or the registry after so many. -/
inductive Stamp
  | change (index : Nat)
  | snapshot (changes : Nat)
  deriving DecidableEq

structure Message where
  body : Json
  stamp : Stamp
  /-- The broadcast it belongs to; a greeting belongs to none. -/
  serial : Option Nat

/-- Who awaits a broadcast: a diff task, `reaper_loop` or `periodic_snapshot_loop`. -/
inductive Owner
  | diff
  | reaper
  | ticker
  deriving DecidableEq

/-- A `_broadcast` suspended in the drain of `current`. -/
structure Broadcast where
  owner : Owner
  message : Message
  current : Writer
  /-- `writer.write` did not meet a dead socket. -/
  accepted : Bool
  remaining : List Writer
  dead : List Writer

/-- A `broadcast_diff` task that has not started.  `agent` is a live object: `attached`
says that the registry still holds it. -/
structure DiffTask where
  change : Nat
  key : DictKey
  op : Op
  agent : Option AgentRecord
  attached : Bool

inductive Scheduled
  | diff (task : DiffTask)
  | handler (writer : Writer)

/-- The state of the daemon between two task switches. -/
structure EventLoop where
  registry : SessionRegistry
  clients : List Writer := []
  scheduled : List Scheduled := []
  inflight : List Broadcast := []
  /-- What the reaper has still to announce: the change and the session. -/
  announcing : List (Nat × DictKey) := []
  nextWriter : Writer := 0
  sent : Writer → List Message := fun _ => []
  broken : Writer → Bool := fun _ => false
  changes : List Change := []
  joined : Writer → Nat := fun _ => 0
  begun : List (Owner × List Writer) := []

inductive Action
  /-- A frontend connects. -/
  | accept
  /-- A datagram arrives, decoded to `payload`. -/
  | event (host : Host) (payload : Json) (now : ℚ)
  /-- The oldest scheduled task starts. -/
  | start (order : List Writer) (ts : ℚ)
  /-- The reaper wakes up. -/
  | sweep (host : Host)
  /-- The reaper goes on to the next removed session. -/
  | announce (order : List Writer) (ts : ℚ)
  /-- The snapshot loop wakes up. -/
  | tick (order : List Writer) (ts : ℚ)
  /-- The drain that a broadcast is suspended in returns or raises. -/
  | resume (index : Nat) (drainRaises : Bool)
  /-- The socket of a client dies: writes fail from now on. -/
  | breaks (writer : Writer)
  /-- `handle_client` sees the connection closed. -/
  | leaves (writer : Writer)

/-! ## Live records -/

/-- The registry with the edits that an event makes in the record of its session, before
a `remove` takes the record out. -/
def editedBy (repr : Json → Except PyErr String) (payload : Json) (now : ℚ)
    (registry : SessionRegistry) : SessionRegistry :=
  match HookEvent.fromDict payload with
  | .error _ => registry
  | .ok event =>
      match event.sessionId.hash with
      | .error _ => registry
      | .ok key =>
          match registry.get? key with
          | none => registry
          | some record =>
              registry.store key (after ((transition repr false event now).run record))

/-- A scheduled diff sees the edits of its record for as long as the registry holds the
record, the last ones included. -/
def DiffTask.refresh (edited left : SessionRegistry) (task : DiffTask) : DiffTask :=
  if task.attached then
    { task with
      agent := (left.get? task.key).or (edited.get? task.key)
      attached := (left.get? task.key).isSome }
  else task

def Scheduled.refresh (edited left : SessionRegistry) : Scheduled → Scheduled
  | diff task => .diff (task.refresh edited left)
  | handler writer => .handler writer

/-! ## Actions -/

namespace EventLoop

/-- A state to continue in and what is handed to `writer.write`. -/
abbrev Planned := EventLoop × Option (Writer × Message)

/-- Somebody's broadcast is suspended in a drain. -/
def awaits (d : EventLoop) (owner : Owner) : Bool :=
  d.inflight.any fun broadcast => broadcast.owner = owner

/-- The reaper is between two announcements. -/
def reaperRuns (d : EventLoop) : Bool :=
  !d.announcing.isEmpty && !d.awaits .reaper

/-- `_broadcast` up to its first drain; without clients there is nothing to do. -/
def broadcast (owner : Owner) (body : Json) (stamp : Stamp) (order : List Writer)
    (d : EventLoop) : Option Planned :=
  if order.isPerm d.clients then
    -- the list that `list(self._clients)` makes is `order`
    match order with
    | [] => some (d, none)
    | first :: rest =>
        let message := ⟨body, stamp, some d.begun.length⟩
        some
          ({ d with
              inflight := d.inflight ++ [⟨owner, message, first, !d.broken first, rest, []⟩]
              begun := d.begun ++ [(owner, order)] },
            some (first, message))
  else none

variable (repr : Json → Except PyErr String) (floatText : PyFloat → String)

/-- `on_event`: the registry handles the event and the diff is scheduled. -/
def observe (host : Host) (payload : Json) (now : ℚ) (d : EventLoop) : EventLoop :=
  let outcome := (onEvent repr host payload now).run d.registry
  let left := after outcome
  let waiting := d.scheduled.map (·.refresh (editedBy repr payload now d.registry) left)
  match outcome with
  -- a raising event and a noop schedule nothing, but live records may have changed
  | .ok (some call) _ =>
      match call.sessionId.hash with
      | .ok key =>
          { d with
            registry := left
            scheduled := waiting ++
              [.diff ⟨d.changes.length, key, call.op, call.agent, call.agent.isSome⟩]
            changes := d.changes ++ [⟨key, call.op⟩] }
      | .error _ => { d with registry := left, scheduled := waiting }
  | _ => { d with registry := left, scheduled := waiting }

/-- The reaper's sweep; what `reap_dead` returns is announced one by one. -/
def reap (host : Host) (d : EventLoop) : EventLoop :=
  let outcome := (SessionRegistry.sweep host).run d.registry
  let left := after outcome
  let edited := after ((SessionRegistry.resolvePendingIdentities host).run d.registry)
  let waiting := d.scheduled.map (·.refresh edited left)
  match outcome with
  | .ok dead _ =>
      { d with
        registry := left
        scheduled := waiting
        announcing := dead.zipIdx.map fun item => (d.changes.length + item.2, item.1)
        changes := d.changes ++ dead.map (⟨·, .remove⟩) }
  | .error _ _ => { d with registry := left, scheduled := waiting }

/-- `handle_client` up to the drain of its greeting. -/
def greet (writer : Writer) (ts : ℚ) (d : EventLoop) : Planned :=
  ({ d with
      clients := d.clients ++ [writer]
      joined := Function.update d.joined writer d.changes.length },
    some (writer,
      ⟨makeSnapshotMessage floatText d.registry.agents ts, .snapshot d.changes.length, none⟩))

/-- The dead list of a broadcast once the drain of its current client is over. -/
def deadAfter (d : EventLoop) (broadcast : Broadcast) (drainRaises : Bool) : List Writer :=
  -- `_write` returns `False`: `write` or `drain` met a dead socket
  if !broadcast.accepted || (drainRaises && d.broken broadcast.current) then
    broadcast.dead ++ [broadcast.current]
  else broadcast.dead

/-- The loop of `_broadcast` from one drain to the next, or to its end. -/
def continueBroadcast (index : Nat) (drainRaises : Bool) (d : EventLoop) : Option Planned :=
  match d.inflight.drop index with
  | [] => none
  | broadcast :: later =>
      let earlier := d.inflight.take index
      let dead := d.deadAfter broadcast drainRaises
      match broadcast.remaining with
      | next :: rest =>
          some
            ({ d with
                inflight := earlier ++
                  { broadcast with
                    current := next
                    accepted := !d.broken next
                    remaining := rest
                    dead := dead } :: later },
              some (next, broadcast.message))
      | [] =>
          some
            ({ d with
                inflight := earlier ++ later
                -- the clients found dead go in one sweep, after the last drain
                clients := d.clients.filter fun writer => decide (writer ∉ dead) },
              none)

/-- What an action does, up to the write it ends with. -/
def plan (d : EventLoop) : Action → Option Planned
  | .breaks writer => some ({ d with broken := Function.update d.broken writer true }, none)
  -- the reaper does not yield between two removals that nobody listens to
  | .announce order ts =>
      match d.reaperRuns, d.announcing with
      | true, (index, sid) :: rest =>
          broadcast .reaper (makeDiffMessage sid.toJson .remove none ts) (.change index) order
            { d with announcing := rest }
      | _, _ => none
  | action =>
      if d.reaperRuns then none
      else
        match action with
        | .accept =>
            some
              ({ d with
                  scheduled := d.scheduled ++ [.handler d.nextWriter]
                  nextWriter := d.nextWriter + 1 },
                none)
        | .event host payload now => some (d.observe repr host payload now, none)
        | .start order ts =>
            match d.scheduled with
            | [] => none
            | .diff task :: rest =>
                broadcast .diff (makeDiffMessage task.key.toJson task.op task.agent ts)
                  (.change task.change) order { d with scheduled := rest }
            | .handler writer :: rest =>
                some (greet floatText writer ts { d with scheduled := rest })
        -- a loop that is suspended in a drain does not wake up for its timer
        | .sweep host => if d.awaits .reaper then none else some (d.reap host, none)
        | .tick order ts =>
            if d.awaits .ticker then none
            else
              broadcast .ticker (makeSnapshotMessage floatText d.registry.agents ts)
                (.snapshot d.changes.length) order d
        | .resume index drainRaises => d.continueBroadcast index drainRaises
        | .leaves writer =>
            if writer ∈ d.clients then
              some
                ({ d with
                    clients := d.clients.erase writer
                    broken := Function.update d.broken writer true },
                  none)
            else none
        | .breaks _ | .announce _ _ => none

/-- `writer.write`: on a dead socket it has no effect but the error. -/
def write (d : EventLoop) (writer : Writer) (message : Message) : EventLoop :=
  if d.broken writer then d
  else { d with sent := Function.update d.sent writer (d.sent writer ++ [message]) }

def deliver : Planned → EventLoop
  | (d, none) => d
  | (d, some (writer, message)) => d.write writer message

/-- One action of the daemon; `none` when it is not enabled. -/
def step (d : EventLoop) (action : Action) : Option EventLoop :=
  (d.plan repr floatText action).map deliver

end EventLoop

end Daemon
end SiliconOffice
