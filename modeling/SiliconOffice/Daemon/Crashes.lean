import SiliconOffice.Daemon.Sweep

/-!
# Crash detection and odd pids

The pid of a record comes from a file that another program writes, as whatever JSON value
is there, and `reap_dead` probes all of them inside one comprehension.  `os.kill` rejects
what is no integer with a `TypeError` and an integer that no pid can be with an
`OverflowError`; `is_pid_alive` catches neither, so one such record ends the sweep for all
sessions.  A value without content never reaches `os.kill` and counts as a dead pid.  A
negative number stands for a group of processes, or for all of them, and counts as alive as
long as there is somebody to signal, although no process has it as its pid.

`probe_eq_iff` says which pids are probed right, `crashes_detected_iff` that a sweep
detects the crashed sessions exactly when all pids are of that kind.
-/

namespace SiliconOffice
namespace Daemon

open Library Python Common

/-! ## What a pid names -/

/-- The number that Python takes the value for; `True` and `False` are integers. -/
def integer? : Json → Option Int
  | .int number => some number
  | .bool value => some (if value then 1 else 0)
  | _ => none

/-- There is somebody to signal under that number, ours to signal or not. -/
def reaches (kill : Json → Except PyErr Unit) (number : Int) : Bool :=
  match kill (.int number) with
  | .ok () | .error .permissionError => true
  | .error _ => false

/-- There is a process with that pid.  Pids are positive: `os.kill` takes zero for the
caller's own group, and a negative number for another group or for everybody. -/
def namesProcess (kill : Json → Except PyErr Unit) (number : Int) : Bool :=
  decide (0 < number) && reaches kill number

/-- The pid is an integer that names no live process. -/
def crashed (kill : Json → Except PyErr Unit) (pid : Json) : Bool :=
  match integer? pid with
  | some number => !namesProcess kill number
  | none => false

/-- What `os.kill(pid, 0)` does with the values that a session file can hold. -/
structure SignalsZero (kill : Json → Except PyErr Unit) : Prop where
  rejects : ∀ pid, integer? pid = none → kill pid = .error .typeError
  takes : ∀ pid number, integer? pid = some number → kill pid = kill (.int number)
  answers : ∀ number : Int, kill (.int number) = .ok () ∨
    ∃ exception, kill (.int number) = .error exception ∧
      (exception.isOSError = true ∨ exception = .overflowError)
  zero : kill (.int 0) ≠ .error .overflowError

/-- `null`, or an integer in the range of `os.kill`. -/
def Probeable (kill : Json → Except PyErr Unit) (pid : Json) : Prop :=
  pid = .null ∨ ∃ number, integer? pid = some number ∧ kill (.int number) ≠ .error .overflowError

/-- No negative number under which there is somebody to signal. -/
def NoGroup (kill : Json → Except PyErr Unit) (pid : Json) : Prop :=
  ∀ number, integer? pid = some number → number < 0 → reaches kill number = false

/-- The sweep returns the ids of the crashed sessions, each once, removes those sessions
and leaves the others as they are. -/
def DetectsCrashes (host : Host) (registry : SessionRegistry) : Prop :=
  ∃ dead left, (SessionRegistry.reapDead host).run registry = .ok dead left ∧ dead.Nodup ∧
    (∀ key, key ∈ dead ↔
      ∃ item ∈ registry.agents.items, item.1 = key ∧ crashed host.kill item.2.pid = true) ∧
    left.agents.items = registry.agents.items.filter fun item => !crashed host.kill item.2.pid

variable {kill : Json → Except PyErr Unit} {pid : Json}

/-! ## One probe -/

theorem truthy_of_integer? {number : Int} (h : integer? pid = some number) :
    pid.truthy = (number != 0) := by
  cases pid with
  | int value =>
      cases h
      rfl
  | bool value =>
      cases h
      cases value <;> rfl
  | null => cases h
  | float value => cases h
  | str text => cases h
  | arr items => cases h
  | obj members => cases h

/-- An integer in range is alive when there is somebody to signal, and it is not zero. -/
theorem probe_of_integer? (hkill : SignalsZero kill) {number : Int}
    (h : integer? pid = some number) (hrange : kill (.int number) ≠ .error .overflowError) :
    probe kill pid = .ok (number != 0 && reaches kill number) := by
  have hnone : pid.isNone = false := by
    cases pid <;> first | rfl | cases h
  unfold probe isPidAlive reaches
  rw [hnone, truthy_of_integer? h, hkill.takes pid number h]
  by_cases hzero : number = 0
  · subst hzero
    rfl
  · have hnonzero : (number != 0) = true := bne_iff_ne.mpr hzero
    rw [hnonzero]
    rcases hkill.answers number with hanswer | ⟨exception, hanswer, hkind⟩
    · simp [hanswer]
    · rw [hanswer] at hrange ⊢
      cases exception <;> simp_all [PyErr.isOSError]

/-- An integer out of range raises. -/
theorem probe_of_overflow (hkill : SignalsZero kill) {number : Int}
    (h : integer? pid = some number) (hrange : kill (.int number) = .error .overflowError) :
    probe kill pid = .error .overflowError := by
  have hnone : pid.isNone = false := by
    cases pid <;> first | rfl | cases h
  have hnonzero : (number != 0) = true := by
    refine bne_iff_ne.mpr fun hzero => hkill.zero ?_
    rw [← hzero, hrange]
  unfold probe isPidAlive
  rw [hnone, truthy_of_integer? h, hnonzero, hkill.takes pid number h, hrange]
  rfl

/-- An integer is probed right unless it is out of range, or negative with somebody to
signal. -/
theorem probe_of_integer?_iff (hkill : SignalsZero kill) {number : Int}
    (h : integer? pid = some number) :
    probe kill pid = .ok (!crashed kill pid) ↔
      kill (.int number) ≠ .error .overflowError ∧ (number < 0 → reaches kill number = false) := by
  have hcrashed : crashed kill pid = !namesProcess kill number := by
    unfold crashed
    rw [h]
  by_cases hrange : kill (.int number) = .error .overflowError
  · rw [probe_of_overflow hkill h hrange]
    exact iff_of_false (fun hok => by cases hok) fun hboth => hboth.1 hrange
  · rw [probe_of_integer? hkill h hrange, hcrashed, namesProcess, Bool.not_not]
    -- the two differ for negative numbers only
    rcases lt_trichotomy number 0 with hnegative | rfl | hpositive
    · have hnonzero : (number != 0) = true := bne_iff_ne.mpr hnegative.ne
      simp [hnonzero, hrange, hnegative, not_lt.mpr hnegative.le]
    · simp [hrange]
    · have hnonzero : (number != 0) = true := bne_iff_ne.mpr hpositive.ne'
      simp [hnonzero, hrange, hpositive, not_lt.mpr hpositive.le]

/-- What is neither `null` nor an integer is never probed right: it raises, or it counts as
dead without a process that could have died. -/
theorem probe_of_not_integer? (hkill : SignalsZero kill) (h : integer? pid = none)
    (hnull : pid ≠ .null) : probe kill pid ≠ .ok (!crashed kill pid) := by
  have hnone : ¬ pid.isNone = true := fun hnone => hnull (eq_null_of_isNone hnone)
  unfold probe isPidAlive crashed
  rw [if_neg hnone, h, hkill.rejects pid h]
  split
  · simp [PyErr.isOSError]
  · simp

/-- **Which pids are probed right.** -/
theorem probe_eq_iff (hkill : SignalsZero kill) :
    probe kill pid = .ok (!crashed kill pid) ↔ Probeable kill pid ∧ NoGroup kill pid := by
  unfold Probeable NoGroup
  by_cases hnull : pid = .null
  · subst hnull
    exact iff_of_true rfl ⟨.inl rfl, fun number hnumber => by cases hnumber⟩
  · cases hinteger : integer? pid with
    | none =>
        refine iff_of_false (probe_of_not_integer? hkill hinteger hnull) ?_
        rintro ⟨hnull' | ⟨number, hnumber, -⟩, -⟩
        · exact hnull hnull'
        · cases hnumber
    | some number =>
        rw [probe_of_integer?_iff hkill hinteger]
        simp [hnull]

/-- A probe of `null` or of an integer in range returns. -/
theorem probe_of_probeable (hkill : SignalsZero kill) (h : Probeable kill pid) :
    ∃ alive, probe kill pid = .ok alive := by
  rcases h with rfl | ⟨number, hnumber, hrange⟩
  · exact ⟨true, rfl⟩
  · exact ⟨_, probe_of_integer? hkill hnumber hrange⟩

/-! ## One sweep -/

theorem deadAmong_of_probes {items : List (DictKey × AgentRecord)}
    (h : ∀ item ∈ items, probe kill item.2.pid = .ok (!crashed kill item.2.pid)) :
    SessionRegistry.deadAmong kill items =
      .ok ((items.filter fun item => crashed kill item.2.pid).map Prod.fst) := by
  induction items with
  | nil => rfl
  | cons item rest ih =>
      rw [SessionRegistry.deadAmong_cons, h item List.mem_cons_self,
        ih fun other hother => h other (List.mem_cons_of_mem _ hother)]
      rw [List.filter_cons]
      cases crashed kill item.2.pid <;> rfl

theorem items_foldl_discard (dead : List DictKey) (registry : SessionRegistry) :
    (dead.foldl SessionRegistry.discard registry).agents.items =
      registry.agents.items.filter fun item => !dead.any (item.1 == ·) := by
  induction dead generalizing registry with
  | nil => exact (List.filter_true _).symm
  | cons first rest ih =>
      rw [List.foldl_cons, ih]
      change (registry.agents.items.filter fun item => !(item.1 == first)).filter _ = _
      rw [List.filter_filter]
      refine List.filter_congr fun item _ => ?_
      rw [List.any_cons, Bool.not_or, Bool.and_comm]

/-- Different items have different keys. -/
theorem eq_of_mem_items {registry : SessionRegistry} {item other : DictKey × AgentRecord}
    (hitem : item ∈ registry.agents.items) (hother : other ∈ registry.agents.items)
    (hkey : item.1 = other.1) : item = other := by
  have hlookup := OrderedDict.get?_of_mem hitem
  rw [hkey, OrderedDict.get?_of_mem hother] at hlookup
  exact Prod.ext hkey (Option.some.inj hlookup).symm

theorem nodup_keys (registry : SessionRegistry) : registry.agents.keys.Nodup := by
  refine List.pairwise_map.mpr (registry.agents.distinct.imp fun hdistinct hsame => ?_)
  rw [hsame, BEq.refl] at hdistinct
  cases hdistinct

/-- **When a sweep detects the crashes.**  It does so exactly when every pid in the registry
is one that `os.kill` can be asked about, and none stands for a group that is there; one other
pid is enough to fail. -/
theorem crashes_detected_iff (host : Host) (registry : SessionRegistry)
    (hkill : SignalsZero host.kill) :
    DetectsCrashes host registry ↔
      ∀ item ∈ registry.agents.items,
        Probeable host.kill item.2.pid ∧ NoGroup host.kill item.2.pid := by
  simp only [← probe_eq_iff hkill]
  constructor
  · rintro ⟨dead, left, hrun, -, hmem, -⟩ item hitem
    rw [SessionRegistry.run_reapDead] at hrun
    cases hdead : SessionRegistry.deadAmong host.kill registry.agents.items with
    | error exception =>
        rw [hdead] at hrun
        cases hrun
    | ok reported =>
        rw [hdead] at hrun
        cases hrun
        obtain ⟨hreturns, hreported⟩ := SessionRegistry.mem_deadAmong_iff hdead
        obtain ⟨alive, halive⟩ := hreturns item hitem
        have hsame : alive = false ↔ crashed host.kill item.2.pid = true := by
          constructor
          · rintro rfl
            obtain ⟨other, hother, hkey, hcrashed⟩ :=
              (hmem item.1).mp ((hreported item.1).mpr ⟨item, hitem, rfl, halive⟩)
            rwa [eq_of_mem_items hother hitem hkey] at hcrashed
          · intro hcrashed
            obtain ⟨other, hother, hkey, hprobe⟩ :=
              (hreported item.1).mp ((hmem item.1).mpr ⟨item, hitem, rfl, hcrashed⟩)
            rw [eq_of_mem_items hother hitem hkey, halive] at hprobe
            exact Except.ok.inj hprobe
        rw [halive]
        cases alive <;> cases hcrashed : crashed host.kill item.2.pid <;> simp_all
  · intro hprobes
    have hdead := deadAmong_of_probes hprobes
    refine ⟨_, _, by rw [SessionRegistry.run_reapDead, hdead], ?_, fun key => ?_, ?_⟩
    · exact (nodup_keys registry).sublist (List.filter_sublist.map Prod.fst)
    · rw [List.mem_map]
      refine exists_congr fun item => ?_
      rw [List.mem_filter, and_assoc, and_comm (a := _ = true)]
    · rw [items_foldl_discard]
      refine List.filter_congr fun item hitem => ?_
      obtain ⟨alive, halive, hreported⟩ :=
        SessionRegistry.any_dead_iff hdead (OrderedDict.get?_of_mem hitem)
      rw [hprobes item hitem] at halive
      cases Except.ok.inj halive
      rw [Bool.not_inj_iff, Bool.eq_iff_iff, hreported, Bool.not_eq_false']

/-! ### A pid that no process can have -/

/-- `os.kill(number, 0)` with 32-bit pids, where process 200 alone is running, in a group of
its own. -/
def signal200 (number : Int) : Except PyErr Unit :=
  if number < -2 ^ 31 ∨ 2 ^ 31 ≤ number then .error .overflowError
  else if number ∈ [0, 200, -200, -1] then .ok ()
  else .error .processLookupError

def only200Running : Host where
  sessionFiles := []
  kill pid :=
    match integer? pid with
    | some number => signal200 number
    | none => .error .typeError

theorem signalsZero_only200Running : SignalsZero only200Running.kill := by
  constructor
  case rejects =>
    intro pid h
    change (match integer? pid with | some number => signal200 number | none => _) = _
    rw [h]
  case takes =>
    intro pid number h
    change (match integer? pid with | some number => signal200 number | none => _) = _
    rw [h]
    rfl
  case answers =>
    intro number
    change signal200 number = _ ∨ ∃ exception, signal200 number = _ ∧ _
    unfold signal200
    split
    · exact .inr ⟨.overflowError, rfl, .inr rfl⟩
    · split
      · exact .inl rfl
      · exact .inr ⟨.processLookupError, rfl, .inl rfl⟩
  case zero => exact fun h => by cases h

/-- A working session with that pid. -/
def working (name : String) (pid : Json) : AgentRecord where
  sessionId := .str name
  projectName := .str "proj"
  cwd := .str "/tmp/proj"
  pid := pid
  entrypoint := .str "cli"
  state := .working
  actionLabel := "Searching"
  stateSince := 0

def trackedPids (first second : Json) : SessionRegistry :=
  (SessionRegistry.fresh.store (.str "s1") (working "s1" first)).store (.str "s2")
    (working "s2" second)

/-- The crash of `s2` goes unnoticed because the pid of `s1` is no pid. -/
theorem crash_unnoticed :
    ¬ ∀ (host : Host) (registry : SessionRegistry), SignalsZero host.kill →
      DetectsCrashes host registry := by
  intro hclaim
  obtain ⟨dead, left, hrun, -⟩ := hclaim only200Running
    (trackedPids (.int (2 ^ 70)) (.int 100)) signalsZero_only200Running
  have hraises : (SessionRegistry.reapDead only200Running).run
      (trackedPids (.int (2 ^ 70)) (.int 100)) =
        .error .overflowError (trackedPids (.int (2 ^ 70)) (.int 100)) := rfl
  rw [hraises] at hrun
  cases hrun

/-- A dead pid next to a group that is not there. -/
theorem crashes_detected_beside_group :
    DetectsCrashes only200Running (trackedPids (.int (-100)) (.int 100)) := by
  refine (crashes_detected_iff only200Running (trackedPids (.int (-100)) (.int 100))
    signalsZero_only200Running).mpr fun item hitem => ?_
  rcases List.mem_cons.mp hitem with rfl | hrest
  · refine ⟨.inr ⟨-100, rfl, fun h => by cases h⟩, ?_⟩
    rintro number ⟨⟩ -
    rfl
  · obtain rfl := List.mem_singleton.mp hrest
    refine ⟨.inr ⟨100, rfl, fun h => by cases h⟩, ?_⟩
    rintro number ⟨⟩ hnegative
    exact absurd hnegative (by decide)

end Daemon
end SiliconOffice
