import SiliconOffice.Daemon.Sweep

/-!
# Live sessions and the reaper

A session is live when some session file names it with a pid that is alive.  Several
files can name one session, a crashed process's leftover next to the file of the process
that resumed it, but a record keeps the pid of its first resolution and
`find_session_file` takes the first file: a sweep asks about that one pid only.

`probe_of_sweep` says what a sweep decides about one record, `keepsLive_iff` when it
leaves the live sessions alone, `sweeps_keep_live_iff` the same along a whole history of
the registry.
-/

namespace SiliconOffice
namespace Daemon

open Library Python Common

/-! ## Histories of the registry -/

/-- What changes the registry: the cold start, hook events, the reaper. -/
inductive Update
  | seed (record : AgentRecord)
  | event (host : Host) (hook : HookEvent) (now : ℚ)
  | sweep (host : Host)

variable (repr : Json → Except PyErr String)

/-- An update that raises half-way leaves what it did before. -/
def Update.perform (registry : SessionRegistry) : Update → SessionRegistry
  | seed record => after ((SessionRegistry.seed record).run registry)
  | event host hook now => after ((SessionRegistry.applyEvent repr host hook now).run registry)
  | sweep host => after ((SessionRegistry.sweep host).run registry)

/-- The registry after a history of updates. -/
def history (updates : List Update) : SessionRegistry :=
  updates.foldl (Update.perform repr) .fresh

/-! ## What a sweep decides -/

/-- Some session file names the session with a pid that is alive. -/
def NamedLive (host : Host) (key : DictKey) : Prop :=
  ∃ data, .ok data ∈ host.sessionFiles ∧
    ((data.get? "sessionId").getD .null).equals key.toJson = true ∧
    isPidAlive host.kill ((data.get? "pid").getD .null) = .ok true

/-- A sweep of this registry does not remove a live session. -/
def KeepsLive (host : Host) (registry : SessionRegistry) : Prop :=
  ∀ key, registry.get? key ≠ none → NamedLive host key →
    (after ((SessionRegistry.sweep host).run registry)).get? key ≠ none

/-- Every lookup and every probe of a sweep returns. -/
def Completes (host : Host) (registry : SessionRegistry) : Prop :=
  ∀ key record, registry.get? key = some record →
    ∃ pid alive, probedPid host record = .ok pid ∧ probe host.kill pid = .ok alive

/-- No live session is judged by a dead pid: neither the pid in its record nor, when the
record has none, the pid of the first file that names it. -/
def JudgedLive (host : Host) (registry : SessionRegistry) : Prop :=
  Completes host registry →
    ∀ key record pid, registry.get? key = some record → NamedLive host key →
      probedPid host record = .ok pid → pid.isNone = true ∨ isPidAlive host.kill pid = .ok true

theorem probe_eq_true_iff {kill : Json → Except PyErr Unit} {pid : Json} :
    probe kill pid = .ok true ↔ pid.isNone = true ∨ isPidAlive kill pid = .ok true := by
  unfold probe
  by_cases hpid : pid.isNone = true
  · simp [hpid]
  · simp [hpid]

section

variable {host : Host} {registry left : SessionRegistry} {dead : List DictKey}

/-- The items of the resolved registry are the resolutions of tracked records. -/
theorem probedPid_of_item {resolvedRegistry : SessionRegistry}
    (hresolve : (SessionRegistry.resolveAll host registry.agents.keys).run registry =
      .ok () resolvedRegistry)
    {item : DictKey × AgentRecord} (hitem : item ∈ resolvedRegistry.agents.items) :
    ∃ record, registry.get? item.1 = some record ∧
      probedPid host record = .ok item.2.pid := by
  have hfinal : resolvedRegistry.get? item.1 = some item.2 := OrderedDict.get?_of_mem hitem
  obtain ⟨record, hrecord, -⟩ :=
    (SessionRegistry.related_of_resolves hresolve).exists_left hfinal
  obtain ⟨listed, hlisted, hkey, -⟩ := OrderedDict.get?_eq_some_iff.mp hrecord
  obtain ⟨final, hresolved, hget⟩ := SessionRegistry.resolveAll_resolves hresolve
    (List.mem_map_of_mem hlisted) (BEq.symm hkey) hrecord
  rw [hfinal] at hget
  cases hget
  exact ⟨record, hrecord, probedPid_of_resolved hresolved⟩

/-- A sweep that raises did so in a lookup or a probe. -/
theorem not_completes_of_sweep {exception : PyErr}
    (hrun : (SessionRegistry.sweep host).run registry = .error exception left) :
    ¬ Completes host registry := by
  intro hcompletes
  have hswept := SessionRegistry.swept host registry
  rw [hrun] at hswept
  cases hswept with
  | unresolved hresolve =>
      obtain ⟨key, record, hrecord, herror⟩ :=
        SessionRegistry.exists_of_resolveAll_error hresolve
      obtain ⟨pid, alive, hpid, -⟩ := hcompletes key record hrecord
      rw [probedPid_of_resolved_error herror] at hpid
      cases hpid
  | unprobed hresolve hdead =>
      obtain ⟨item, hitem, herror⟩ := SessionRegistry.exists_of_deadAmong_error hdead
      obtain ⟨record, hrecord, hpid⟩ := probedPid_of_item hresolve hitem
      obtain ⟨pid, alive, hpid', halive⟩ := hcompletes item.1 record hrecord
      rw [hpid] at hpid'
      cases hpid'
      rw [herror] at halive
      cases halive

/-- **A sweep that returns keeps a session exactly when the pid it probes is alive.** -/
theorem probe_of_sweep (hrun : (SessionRegistry.sweep host).run registry = .ok dead left)
    {key : DictKey} {record : AgentRecord} (hrecord : registry.get? key = some record) :
    ∃ pid alive, probedPid host record = .ok pid ∧ probe host.kill pid = .ok alive ∧
      (left.get? key ≠ none ↔ alive = true) := by
  have hnone := SessionRegistry.sweep_none_iff hrun key
  have hswept := SessionRegistry.swept host registry
  rw [hrun] at hswept
  cases hswept with
  | completed hresolve hdead =>
      obtain ⟨listed, hlisted, hkey, -⟩ := OrderedDict.get?_eq_some_iff.mp
        (show registry.agents.get? key = some record from hrecord)
      obtain ⟨final, hresolved, hget⟩ := SessionRegistry.resolveAll_resolves hresolve
        (List.mem_map_of_mem hlisted) (BEq.symm hkey) hrecord
      obtain ⟨alive, halive, hreported⟩ := SessionRegistry.any_dead_iff hdead hget
      refine ⟨final.pid, alive, probedPid_of_resolved hresolved, halive, ?_⟩
      rw [Ne, hnone, hrecord, hreported]
      cases alive <;> simp

/-- When a sweep leaves every live session alone. -/
theorem keepsLive_iff : KeepsLive host registry ↔ JudgedLive host registry := by
  unfold KeepsLive JudgedLive
  cases hrun : (SessionRegistry.sweep host).run registry with
  | error exception left =>
      refine iff_of_true (fun key htracked _ => ?_)
        (fun hcompletes => absurd hcompletes (not_completes_of_sweep hrun))
      rw [after_error]
      exact mt ((SessionRegistry.related_of_sweep_raised hrun).none_iff key).mp htracked
  | ok dead left =>
      rw [after_ok]
      constructor
      · intro hkeeps _ key record pid hrecord hlive hpid
        obtain ⟨probed, alive, hprobed, halive, hkept⟩ := probe_of_sweep hrun hrecord
        rw [hpid] at hprobed
        cases hprobed
        have htracked : registry.get? key ≠ none := by
          rw [hrecord]
          exact Option.some_ne_none record
        rw [hkept.mp (hkeeps key htracked hlive)] at halive
        exact probe_eq_true_iff.mp halive
      · intro hjudged key htracked hlive
        obtain ⟨record, hrecord⟩ := Option.ne_none_iff_exists'.mp htracked
        have hcompletes : Completes host registry := fun other otherRecord hother => by
          obtain ⟨pid, alive, hpid, halive, -⟩ := probe_of_sweep hrun hother
          exact ⟨pid, alive, hpid, halive⟩
        obtain ⟨pid, alive, hpid, halive, hkept⟩ := probe_of_sweep hrun hrecord
        have hprobe := probe_eq_true_iff.mpr
          (hjudged hcompletes key record pid hrecord hlive hpid)
        rw [halive] at hprobe
        exact hkept.mpr (Except.ok.inj hprobe)

end

/-- **When the reaper leaves live sessions alone.**  In every history of the registry, no
sweep removes a live session exactly when no sweep judges one by a dead pid. -/
theorem sweeps_keep_live_iff (updates : List Update) :
    (∀ earlier host, earlier ++ [.sweep host] <+: updates →
        KeepsLive host (history repr earlier)) ↔
      ∀ earlier host, earlier ++ [.sweep host] <+: updates →
        JudgedLive host (history repr earlier) :=
  forall_congr' fun _ => forall_congr' fun _ => imp_congr_right fun _ => keepsLive_iff

/-! ### A leftover file in front -/

/-- A host whose session files are objects and where a pid is alive or dead. -/
def Host.ofFiles (files : List (List (String × Json))) (alive : Json → Bool) : Host where
  sessionFiles := files.map fun members => .ok (.obj members)
  kill pid := if alive pid then .ok () else .error .processLookupError

/-- The crashed process's file comes first, the process that resumed the session second. -/
def leftoverFirst : List (List (String × Json)) :=
  [[("sessionId", .str "s1"), ("pid", .int 100)],
   [("sessionId", .str "s1"), ("pid", .int 200)]]

def only200 : Json → Bool
  | .int pid => pid == 200
  | _ => false

/-- `SessionStart` of the resumed session, on that host. -/
def resumed : Update :=
  .event (.ofFiles leftoverFirst only200)
    { sessionId := .str "s1", hookEventName := .str "SessionStart", cwd := .str "/tmp/proj" } 1

/-- The record takes pid 100 from the leftover file and the next sweep drops the session,
while pid 200 of the second file is alive. -/
theorem sweep_removes_live :
    ¬ ∀ (repr : Json → Except PyErr String) (updates : List Update)
      (files : List (List (String × Json))) (alive : Json → Bool),
      KeepsLive (.ofFiles files alive) (history repr updates) := by
  intro hclaim
  have hkept := hclaim (fun _ => .ok "") [resumed] leftoverFirst only200 (.str "s1")
    (by decide)
    ⟨.obj [("sessionId", .str "s1"), ("pid", .int 200)],
      List.mem_cons_of_mem _ List.mem_cons_self, rfl, rfl⟩
  exact hkept rfl

end Daemon
end SiliconOffice
