import SiliconOffice.Daemon.Registry
import SiliconOffice.Library.Related

/-!
# Sweeps: what the reaper does to the registry

A sweep gives every record without a pid another chance to find its session file, then
drops the records whose pid is dead.  Both loops stop at the first exception, and a
sweep that raises removes nothing.

* `resolveAll_related`, `resolveAll_resolves` — the first loop resolves each record once,
  and resolving again would change nothing (`resolved_idem`);
* `mem_deadAmong_iff` — the second loop collects the keys whose probe says dead;
* `swept` — the outcomes of a sweep, and what each of them leaves of the sessions:
  `related_of_sweep_raised`, `related_of_sweep`, `sweep_none_iff`, `sweep_reports_tracked`.
-/

namespace SiliconOffice
namespace Daemon

open Library Python Common

/-! ## The pid that a sweep probes -/

/-- The pid of a record once its session file has been looked up: its own, else that of
the first file which names the session. -/
def probedPid (host : Host) (record : AgentRecord) : Except PyErr Json :=
  if record.pid.isNone then
    match findSessionFile host.sessionFiles record.sessionId with
    | .error exception => .error exception
    | .ok none => .ok .null
    | .ok (some info) => .ok ((info.get? "pid").getD .null)
  else .ok record.pid

/-- `rec.pid is not None and not is_pid_alive(rec.pid)`, the other way round. -/
def probe (kill : Json → Except PyErr Unit) (pid : Json) : Except PyErr Bool :=
  if pid.isNone then .ok true else isPidAlive kill pid

theorem eq_null_of_isNone {value : Json} (h : value.isNone = true) : value = .null := by
  cases value <;> first | rfl | cases h

/-- A value without content has no pid. -/
theorem pid_of_not_truthy {info : Json} (h : ¬ info.truthy = true) :
    (info.get? "pid").getD .null = .null := by
  cases info with
  | obj members =>
      cases members with
      | nil => rfl
      | cons entry rest => exact absurd rfl h
  | null => rfl
  | bool value => rfl
  | int value => rfl
  | float value => rfl
  | str text => rfl
  | arr items => rfl

theorem probedPid_of_resolved {host : Host} {record final : AgentRecord}
    (h : resolved host record = .ok final) : probedPid host record = .ok final.pid := by
  unfold resolved at h
  unfold probedPid
  by_cases hpid : record.pid.isNone = true
  · rw [if_pos hpid] at h ⊢
    cases hfind : findSessionFile host.sessionFiles record.sessionId with
    | error exception =>
        rw [hfind] at h
        cases h
    | ok found =>
        rw [hfind] at h
        cases found with
        | none =>
            cases h
            rw [eq_null_of_isNone hpid]
        | some info =>
            dsimp only at h ⊢
            by_cases hinfo : info.truthy = true
            · rw [if_pos hinfo] at h
              cases h
              rfl
            · rw [if_neg hinfo] at h
              cases h
              rw [pid_of_not_truthy hinfo, eq_null_of_isNone hpid]
  · rw [if_neg hpid] at h ⊢
    cases h
    rfl

theorem probedPid_of_resolved_error {host : Host} {record : AgentRecord} {exception : PyErr}
    (h : resolved host record = .error exception) :
    probedPid host record = .error exception := by
  obtain ⟨hpid, hfind⟩ := resolved_error_iff.mp h
  unfold probedPid
  rw [if_pos hpid, hfind]

/-! ## Resolving identities -/

theorem identify_idem (info : Json) (record : AgentRecord) :
    identify info (identify info record) = identify info record := by
  unfold identify
  dsimp only
  cases info.get? "entrypoint" <;> split <;> rfl

/-- Resolving a resolved record changes nothing. -/
theorem resolved_idem {host : Host} {record final : AgentRecord}
    (h : resolved host record = .ok final) : resolved host final = .ok final := by
  unfold resolved at h
  by_cases hpid : record.pid.isNone = true
  · rw [if_pos hpid] at h
    cases hfind : findSessionFile host.sessionFiles record.sessionId with
    | error exception =>
        rw [hfind] at h
        cases h
    | ok found =>
        rw [hfind] at h
        cases found with
        | none =>
            cases h
            unfold resolved
            rw [if_pos hpid, hfind]
        | some info =>
            dsimp only at h
            have hfinal : (if info.truthy = true then identify info record else record) = final :=
              Except.ok.inj h
            have hid : final.sessionId = record.sessionId := by
              rw [← hfinal]
              split <;> rfl
            unfold resolved
            rw [hid, hfind]
            dsimp only
            by_cases hinfo : info.truthy = true
            · rw [if_pos hinfo] at hfinal ⊢
              rw [← hfinal, identify_idem]
              split <;> rfl
            · rw [if_neg hinfo]
              split <;> rfl
  · rw [if_neg hpid] at h
    cases h
    unfold resolved
    rw [if_neg hpid]

/-- What a record can have become while identities were being resolved. -/
def Resolves (host : Host) (record final : AgentRecord) : Prop :=
  final = record ∨ resolved host record = .ok final

/-- Resolving only fills in who the session is. -/
theorem Resolves.frame {host : Host} {record final : AgentRecord} (h : Resolves host record final) :
    final.sessionId = record.sessionId ∧ final.state = record.state ∧
      final.actionLabel = record.actionLabel ∧ final.stateSince = record.stateSince := by
  rcases h with rfl | h
  · exact ⟨rfl, rfl, rfl, rfl⟩
  · unfold resolved at h
    split at h
    · split at h
      · cases h
      · cases h
        exact ⟨rfl, rfl, rfl, rfl⟩
      · cases h
        split <;> exact ⟨rfl, rfl, rfl, rfl⟩
    · cases h
      exact ⟨rfl, rfl, rfl, rfl⟩

/-- A later resolution of the same record is the first one. -/
theorem Resolves.then_resolved {host : Host} {record between : AgentRecord}
    (h : Resolves host record between) :
    resolved host record = resolved host between := by
  rcases h with rfl | h
  · rfl
  · rw [h, resolved_idem h]

theorem Resolves.refl {host : Host} (record : AgentRecord) : Resolves host record record :=
  .inl rfl

theorem Resolves.trans {host : Host} {record between final : AgentRecord}
    (hfirst : Resolves host record between) (hsecond : Resolves host between final) :
    Resolves host record final := by
  rcases hsecond with rfl | hsecond
  · exact hfirst
  · exact .inr (hfirst.then_resolved.trans hsecond)

namespace SessionRegistry

variable {host : Host} {registry : SessionRegistry}

theorem run_resolveAll_cons (key : DictKey) (rest : List DictKey) :
    (resolveAll host (key :: rest)).run registry =
      match registry.get? key with
      | none => (resolveAll host rest).run registry
      | some record =>
          match resolved host record with
          | .error exception => .error exception registry
          | .ok final => (resolveAll host rest).run (registry.store key final) := by
  rw [resolveAll, EStateM.run_bind, EStateM.run_get]
  dsimp only
  cases hrecord : registry.get? key with
  | none =>
      rw [show registry.agents.get? key = none from hrecord]
  | some record =>
      rw [show registry.agents.get? key = some record from hrecord]
      dsimp only
      rw [EStateM.run_bind, run_edited, run_resolveIdentity]
      cases resolved host record with
      | error exception =>
          change EStateM.Result.error exception (registry.store key record) = _
          rw [store_of_get? hrecord]
      | ok final => rfl

/-- Storing a resolution relates the registry before to the registry after. -/
theorem related_store {key : DictKey} {record final : AgentRecord}
    (hrecord : registry.get? key = some record) (hfinal : resolved host record = .ok final) :
    OrderedDict.Related (Resolves host) registry.agents (registry.store key final).agents :=
  .store_right Resolves.refl hrecord (.inr hfinal)

/-- **The resolving loop neither adds nor drops a session**, whether it completes or
raises, and each record is resolved at most once. -/
theorem resolveAll_related (keys : List DictKey) :
    OrderedDict.Related (Resolves host) registry.agents
      (after ((resolveAll host keys).run registry)).agents := by
  induction keys generalizing registry with
  | nil => exact .refl Resolves.refl registry.agents
  | cons first rest ih =>
      rw [run_resolveAll_cons]
      cases hrecord : registry.get? first with
      | none => exact ih
      | some record =>
          dsimp only
          cases hfinal : resolved host record with
          | error exception => exact .refl Resolves.refl registry.agents
          | ok final =>
              exact (related_store hrecord hfinal).trans ih fun _ _ _ => Resolves.trans

/-- When the loop completes, every record among its keys has been resolved. -/
theorem resolveAll_resolves {keys : List DictKey} {done : Unit} {resolvedRegistry : SessionRegistry}
    (hrun : (resolveAll host keys).run registry = .ok done resolvedRegistry) {key listed : DictKey}
    (hlisted : listed ∈ keys) (hkey : (key == listed) = true) {record : AgentRecord}
    (hrecord : registry.get? key = some record) :
    ∃ final, resolved host record = .ok final ∧ resolvedRegistry.get? key = some final := by
  induction keys generalizing registry record with
  | nil => exact absurd hlisted List.not_mem_nil
  | cons first rest ih =>
      rw [run_resolveAll_cons] at hrun
      cases hfirst : registry.get? first with
      | none =>
          rw [hfirst] at hrun
          rcases List.mem_cons.mp hlisted with rfl | hrest
          · have hnone : registry.get? key = none :=
              (registry.agents.get?_congr hkey).trans hfirst
            rw [hnone] at hrecord
            cases hrecord
          · exact ih hrun hrest hrecord
      | some firstRecord =>
          rw [hfirst] at hrun
          dsimp only at hrun
          cases hresolved : resolved host firstRecord with
          | error exception =>
              rw [hresolved] at hrun
              cases hrun
          | ok final =>
              rw [hresolved] at hrun
              dsimp only at hrun
              -- what the rest of the loop makes of the record is what resolving makes of it
              obtain ⟨between, hbetween, hrelated⟩ :=
                (related_store hfirst hresolved).exists_right hrecord
              rcases List.mem_cons.mp hlisted with rfl | hrest
              · have hsame : record = firstRecord := by
                  have hlookup := (registry.agents.get?_congr hkey).trans hfirst
                  exact Option.some.inj (hrecord.symm.trans hlookup)
                subst hsame
                have hstored : (registry.store listed final).get? key = some final := by
                  rw [get?_store, if_pos hkey]
                have hrest := @resolveAll_related host (registry.store listed final) rest
                rw [hrun, after_ok] at hrest
                obtain ⟨last, hlast, hlastRecord⟩ := hrest.exists_right hstored
                refine ⟨last, ?_, hlast⟩
                rcases hlastRecord with rfl | hagain
                · exact hresolved
                · rw [hresolved, ← hagain, resolved_idem hresolved]
              · obtain ⟨last, hlast, hget⟩ := ih hrun hrest hbetween
                exact ⟨last, hrelated.then_resolved.trans hlast, hget⟩

/-- When the loop raises, some record could not be resolved. -/
theorem exists_of_resolveAll_error {keys : List DictKey} {exception : PyErr}
    {left : SessionRegistry} (hrun : (resolveAll host keys).run registry = .error exception left) :
    ∃ key record, registry.get? key = some record ∧ resolved host record = .error exception := by
  induction keys generalizing registry with
  | nil => cases hrun
  | cons first rest ih =>
      rw [run_resolveAll_cons] at hrun
      cases hfirst : registry.get? first with
      | none =>
          rw [hfirst] at hrun
          exact ih hrun
      | some firstRecord =>
          rw [hfirst] at hrun
          dsimp only at hrun
          cases hresolved : resolved host firstRecord with
          | error other =>
              rw [hresolved] at hrun
              cases hrun
              exact ⟨first, firstRecord, hfirst, hresolved⟩
          | ok final =>
              rw [hresolved] at hrun
              obtain ⟨key, record, hrecord, herror⟩ := ih hrun
              obtain ⟨before, hbefore, hrelated⟩ :=
                (related_store hfirst hresolved).exists_left hrecord
              exact ⟨key, before, hbefore, hrelated.then_resolved.trans herror⟩

/-! ## Reaping -/

theorem deadAmong_cons (kill : Json → Except PyErr Unit) (item : DictKey × AgentRecord)
    (rest : List (DictKey × AgentRecord)) :
    deadAmong kill (item :: rest) =
      match probe kill item.2.pid with
      | .error exception => .error exception
      | .ok alive =>
          match deadAmong kill rest with
          | .error exception => .error exception
          | .ok others => .ok (if alive then others else item.1 :: others) := by
  obtain ⟨sid, record⟩ := item
  rw [deadAmong]
  unfold probe
  dsimp only
  split
  · cases deadAmong kill rest <;> rfl
  · cases isPidAlive kill record.pid with
    | error exception => rfl
    | ok alive => cases deadAmong kill rest <;> rfl

/-- The loop completes when every probe returns, and collects the keys probed dead. -/
theorem mem_deadAmong_iff {kill : Json → Except PyErr Unit}
    {items : List (DictKey × AgentRecord)} {dead : List DictKey}
    (hdead : deadAmong kill items = .ok dead) :
    (∀ item ∈ items, ∃ alive, probe kill item.2.pid = .ok alive) ∧
      ∀ key, key ∈ dead ↔ ∃ item ∈ items, item.1 = key ∧ probe kill item.2.pid = .ok false := by
  induction items generalizing dead with
  | nil =>
      cases hdead
      simp
  | cons item rest ih =>
      rw [deadAmong_cons] at hdead
      cases hprobe : probe kill item.2.pid with
      | error exception =>
          rw [hprobe] at hdead
          cases hdead
      | ok alive =>
          rw [hprobe] at hdead
          dsimp only at hdead
          cases hothers : deadAmong kill rest with
          | error exception =>
              rw [hothers] at hdead
              cases hdead
          | ok others =>
              rw [hothers] at hdead
              obtain ⟨hreturns, hmem⟩ := ih hothers
              refine ⟨fun other hother => ?_, fun key => ?_⟩
              · rcases List.mem_cons.mp hother with rfl | hrest
                · exact ⟨alive, hprobe⟩
                · exact hreturns other hrest
              · have hsplit : key ∈ dead ↔ (alive = false ∧ item.1 = key) ∨ key ∈ others := by
                  have hlist := Except.ok.inj hdead
                  cases alive <;> simp [← hlist, eq_comm]
                rw [hsplit, hmem]
                simp [hprobe, and_comm]

/-- A session is among the dead exactly when the probe of its pid says so. -/
theorem any_dead_iff {dead : List DictKey}
    (hdead : deadAmong host.kill registry.agents.items = .ok dead) {key : DictKey}
    {record : AgentRecord} (hget : registry.get? key = some record) :
    ∃ alive, probe host.kill record.pid = .ok alive ∧
      (dead.any (key == ·) = true ↔ alive = false) := by
  obtain ⟨hreturns, hmem⟩ := mem_deadAmong_iff hdead
  obtain ⟨item, hitem, hitemKey, rfl⟩ := OrderedDict.get?_eq_some_iff.mp
    (show registry.agents.get? key = some record from hget)
  obtain ⟨alive, halive⟩ := hreturns item hitem
  refine ⟨alive, halive, ?_⟩
  rw [List.any_eq_true]
  constructor
  · rintro ⟨reported, hreported, hsame⟩
    obtain ⟨other, hother, rfl, hprobe⟩ := (hmem reported).mp hreported
    -- two items with equal keys are one item
    have hlookup := (OrderedDict.get?_of_mem hother).symm.trans
      (registry.agents.get?_congr (BEq.symm hsame))
    have hsameRecord : other.2 = item.2 :=
      Option.some.inj (hlookup.trans (show _ = some item.2 from hget))
    rw [hsameRecord, halive] at hprobe
    exact Except.ok.inj hprobe
  · rintro rfl
    exact ⟨item.1, (hmem item.1).mpr ⟨item, hitem, rfl, halive⟩, BEq.symm hitemKey⟩

theorem exists_of_deadAmong_error {kill : Json → Except PyErr Unit}
    {items : List (DictKey × AgentRecord)} {exception : PyErr}
    (hdead : deadAmong kill items = .error exception) :
    ∃ item ∈ items, probe kill item.2.pid = .error exception := by
  induction items with
  | nil => cases hdead
  | cons item rest ih =>
      rw [deadAmong_cons] at hdead
      cases hprobe : probe kill item.2.pid with
      | error other =>
          rw [hprobe] at hdead
          cases hdead
          exact ⟨item, List.mem_cons_self, hprobe⟩
      | ok alive =>
          rw [hprobe] at hdead
          dsimp only at hdead
          cases hothers : deadAmong kill rest with
          | error other =>
              rw [hothers] at hdead
              cases hdead
              obtain ⟨other, hother, herror⟩ := ih hothers
              exact ⟨other, List.mem_cons_of_mem _ hother, herror⟩
          | ok others =>
              rw [hothers] at hdead
              cases hdead

theorem get?_foldl_discard (dead : List DictKey) (key : DictKey) :
    (dead.foldl discard registry).get? key =
      if dead.any (key == ·) then none else registry.get? key := by
  induction dead generalizing registry with
  | nil => rfl
  | cons first rest ih =>
      rw [List.foldl_cons, ih, get?_discard, List.any_cons]
      cases key == first <;> cases rest.any (key == ·) <;> rfl

theorem run_reapDead :
    (reapDead host).run registry =
      match deadAmong host.kill registry.agents.items with
      | .error exception => .error exception registry
      | .ok dead => .ok dead (dead.foldl discard registry) := by
  rw [reapDead, EStateM.run_bind, EStateM.run_get]
  dsimp only
  rw [EStateM.run_bind]
  cases deadAmong host.kill registry.agents.items <;> rfl

theorem run_sweep :
    (sweep host).run registry =
      match (resolveAll host registry.agents.keys).run registry with
      | .error exception left => .error exception left
      | .ok _ resolvedRegistry => (reapDead host).run resolvedRegistry := by
  rw [sweep, EStateM.run_bind, resolvePendingIdentities, EStateM.run_bind, EStateM.run_get]
  dsimp only
  cases (resolveAll host registry.agents.keys).run registry <;> rfl

/-! ## All that a sweep does -/

/-- The outcomes of a sweep: a lookup raises, a probe raises, or the dead are dropped. -/
inductive Swept (host : Host) (registry : SessionRegistry) :
    EStateM.Result PyErr SessionRegistry (List DictKey) → Prop
  | unresolved {exception : PyErr} {left : SessionRegistry}
      (resolves : (resolveAll host registry.agents.keys).run registry = .error exception left) :
      Swept host registry (.error exception left)
  | unprobed {exception : PyErr} {resolvedRegistry : SessionRegistry}
      (resolves : (resolveAll host registry.agents.keys).run registry = .ok () resolvedRegistry)
      (probes : deadAmong host.kill resolvedRegistry.agents.items = .error exception) :
      Swept host registry (.error exception resolvedRegistry)
  | completed {dead : List DictKey} {resolvedRegistry : SessionRegistry}
      (resolves : (resolveAll host registry.agents.keys).run registry = .ok () resolvedRegistry)
      (probes : deadAmong host.kill resolvedRegistry.agents.items = .ok dead) :
      Swept host registry (.ok dead (dead.foldl discard resolvedRegistry))

theorem swept (host : Host) (registry : SessionRegistry) :
    Swept host registry ((sweep host).run registry) := by
  rw [run_sweep]
  cases hresolve : (resolveAll host registry.agents.keys).run registry with
  | error exception left => exact .unresolved hresolve
  | ok done resolvedRegistry =>
      dsimp only
      rw [run_reapDead]
      cases hdead : deadAmong host.kill resolvedRegistry.agents.items with
      | error exception => exact .unprobed hresolve hdead
      | ok dead => exact .completed hresolve hdead

/-- The resolving loop of a sweep that got through it. -/
theorem related_of_resolves {resolvedRegistry : SessionRegistry}
    (hresolve : (resolveAll host registry.agents.keys).run registry = .ok () resolvedRegistry) :
    OrderedDict.Related (Resolves host) registry.agents resolvedRegistry.agents := by
  have hrelated := @resolveAll_related host registry registry.agents.keys
  rw [hresolve] at hrelated
  exact hrelated

/-- A sweep that raises has dropped nothing. -/
theorem related_of_sweep_raised {exception : PyErr} {left : SessionRegistry}
    (hrun : (sweep host).run registry = .error exception left) :
    OrderedDict.Related (Resolves host) registry.agents left.agents := by
  have hswept := swept host registry
  rw [hrun] at hswept
  cases hswept with
  | unresolved hresolve =>
      have hrelated := @resolveAll_related host registry registry.agents.keys
      rw [hresolve] at hrelated
      exact hrelated
  | unprobed hresolve hdead => exact related_of_resolves hresolve

/-- A sweep that returns has resolved the records and then dropped the dead. -/
theorem related_of_sweep {dead : List DictKey} {left : SessionRegistry}
    (hrun : (sweep host).run registry = .ok dead left) :
    ∃ resolvedRegistry : SessionRegistry,
      OrderedDict.Related (Resolves host) registry.agents resolvedRegistry.agents ∧
        left = dead.foldl discard resolvedRegistry := by
  have hswept := swept host registry
  rw [hrun] at hswept
  cases hswept with
  | completed hresolve hdead => exact ⟨_, related_of_resolves hresolve, rfl⟩

/-- It has dropped exactly the sessions that it reports. -/
theorem sweep_none_iff {dead : List DictKey} {left : SessionRegistry}
    (hrun : (sweep host).run registry = .ok dead left) (key : DictKey) :
    left.get? key = none ↔ registry.get? key = none ∨ dead.any (key == ·) = true := by
  obtain ⟨resolvedRegistry, hrelated, rfl⟩ := related_of_sweep hrun
  have hsame : resolvedRegistry.get? key = none ↔ registry.get? key = none := hrelated.none_iff key
  rw [get?_foldl_discard, ← hsame]
  split <;> simp_all

/-- A sweep reports only sessions that were tracked. -/
theorem sweep_reports_tracked {dead : List DictKey} {left : SessionRegistry}
    (hrun : (sweep host).run registry = .ok dead left) {sid : DictKey} (hsid : sid ∈ dead) :
    registry.get? sid ≠ none := by
  have hswept := swept host registry
  rw [hrun] at hswept
  cases hswept with
  | @completed _ resolvedRegistry hresolve hdead =>
      obtain ⟨item, hitem, rfl, -⟩ := ((mem_deadAmong_iff hdead).2 sid).mp hsid
      have hfound : resolvedRegistry.get? item.1 = some item.2 := OrderedDict.get?_of_mem hitem
      obtain ⟨record, hrecord, -⟩ := (related_of_resolves hresolve).exists_left hfound
      rw [show registry.get? item.1 = some record from hrecord]
      exact Option.some_ne_none record

end SessionRegistry

end Daemon
end SiliconOffice
