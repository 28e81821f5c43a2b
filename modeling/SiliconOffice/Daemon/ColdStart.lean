import SiliconOffice.Daemon.Crashes
import SiliconOffice.Daemon.WellTyped

/-!
# Session files that are malformed

`_read_session_files` is what identity resolution and the cold start see of the sessions
directory.  It drops a file that cannot be read and a file that is not JSON, but not one
whose bytes are no UTF-8, and it passes on JSON that is no object, on which `.get` raises.

`listing_of_files` is the reading loop as one list; `malformed_ignored_iff` says that the
malformed files are as good as absent exactly when each of them is of the kind that the
loop drops.
-/

namespace SiliconOffice
namespace Daemon

open Library Python Common

/-! ## The cold start -/

/-- The record that `_cold_start` builds from a session file. -/
def coldRecord (sessionId info : Json) (now : ℚ) : Except PyErr AgentRecord := do
  let cwd ← info.get "cwd" (.str "")
  let name ← info.get "name" .null
  let projectName ← if name.truthy then .ok name else projectNameFromCwd cwd
  let pid ← info.get "pid" .null
  let entrypoint ← info.get "entrypoint" (.str "unknown")
  .ok
    { sessionId := sessionId
      projectName := projectName
      cwd := cwd
      pid := pid
      entrypoint := entrypoint
      state := .idle
      actionLabel := "Idle"
      stateSince := now }

/-- The loop of `_cold_start`. -/
def seedAll (now : ℚ) : List Json → EStateM PyErr SessionRegistry Unit
  | [] => pure ()
  | info :: rest => do
      let sessionId ← raising (info.get "sessionId" .null)
      if sessionId.truthy then
        let record ← raising (coldRecord sessionId info now)
        SessionRegistry.seed record
      seedAll now rest

/-- `_cold_start`. -/
def coldStart (host : Host) (now : ℚ) : EStateM PyErr SessionRegistry Unit := do
  let live ← raising (listLiveSessions host)
  seedAll now live

/-! ## Files that might as well be absent -/

/-- The file is read as a JSON object. -/
def holdsObject : Except PyErr Json → Bool
  | .ok data => data.isObject
  | .error _ => false

/-- The same machine without its malformed session files. -/
def Host.tidied (host : Host) : Host :=
  { host with sessionFiles := host.sessionFiles.filter holdsObject }

/-- Nothing that reads the session files notices the malformed ones. -/
structure MalformedIgnored (host : Host) : Prop where
  lookups : ∀ sessionId, ∃ found,
    findSessionFile host.sessionFiles sessionId = .ok found ∧
      findSessionFile host.tidied.sessionFiles sessionId = .ok found
  enumeration : ∃ live,
    listLiveSessions host = .ok live ∧ listLiveSessions host.tidied = .ok live
  coldStarts : ∀ now registry,
    (coldStart host now).run registry = (coldStart host.tidied now).run registry
  registrations : ∀ repr event now registry,
    (SessionRegistry.applyEvent repr host event now).run registry =
      (SessionRegistry.applyEvent repr host.tidied event now).run registry

/-- The pids of the session objects are absent, `null` or integers that `os.kill` takes. -/
def PidsInRange (host : Host) : Prop :=
  ∀ data, .ok data ∈ host.sessionFiles → data.isObject = true →
    Probeable host.kill ((data.get? "pid").getD .null)

variable {host : Host} {files : List (Except PyErr Json)} {all live : List Json}
  {kill : Json → Except PyErr Unit}

/-! ## The reading loop -/

/-- **The directory as one list.**  The loop returns exactly when every exception is one
that it drops, and then with the values of the other files. -/
theorem listing_of_files :
    readSessionFiles files = .ok all ↔
      (∀ exception, .error exception ∈ files →
        (exception.isOSError || exception = .jsonDecodeError) = true) ∧
      all = files.filterMap Except.toOption := by
  induction files generalizing all with
  | nil =>
      constructor
      · rintro ⟨⟩
        exact ⟨fun exception h => absurd h List.not_mem_nil, rfl⟩
      · rintro ⟨-, rfl⟩
        rfl
  | cons file rest ih =>
      cases file with
      | ok data =>
          constructor
          · intro h
            obtain ⟨others, hothers, hall⟩ := exists_of_bind_ok h
            obtain ⟨hdropped, rfl⟩ := ih.mp hothers
            refine ⟨fun exception hmem => ?_, (Except.ok.inj hall).symm⟩
            rcases List.mem_cons.mp hmem with hfirst | hrest
            · cases hfirst
            · exact hdropped exception hrest
          · rintro ⟨hdropped, rfl⟩
            have hrest : readSessionFiles rest = .ok (rest.filterMap Except.toOption) :=
              ih.mpr ⟨fun exception hmem => hdropped exception (List.mem_cons_of_mem _ hmem), rfl⟩
            unfold readSessionFiles
            rw [hrest]
            rfl
      | error exception =>
          unfold readSessionFiles
          by_cases hskipped : (exception.isOSError || exception = .jsonDecodeError) = true
          · rw [if_pos hskipped, ih]
            refine and_congr_left fun _ => ⟨fun hdropped other hmem => ?_,
              fun hdropped other hmem => hdropped other (List.mem_cons_of_mem _ hmem)⟩
            rcases List.mem_cons.mp hmem with hfirst | hrest
            · cases hfirst
              exact hskipped
            · exact hdropped other hrest
          · rw [if_neg hskipped]
            refine iff_of_false (fun h => by cases h) fun h => ?_
            exact hskipped (h.1 exception List.mem_cons_self)

theorem toOption_eq_some_iff {file : Except PyErr Json} {data : Json} :
    file.toOption = some data ↔ file = .ok data := by
  cases file with
  | ok value =>
      exact ⟨fun h => congrArg _ (Option.some.inj h), fun h => congrArg _ (Except.ok.inj h)⟩
  | error exception => exact iff_of_false (Option.some_ne_none data).symm fun h => by cases h

/-- Taking the malformed files away takes nothing from the listing. -/
theorem readSessionFiles_tidied (h : ObjectFiles host) :
    readSessionFiles host.tidied.sessionFiles = readSessionFiles host.sessionFiles := by
  have hdropped : ∀ exception, .error exception ∈ host.sessionFiles →
      (exception.isOSError || exception = .jsonDecodeError) = true := by
    intro exception hmem
    rcases h _ hmem with ⟨members, hobject⟩ | ⟨other, hsame, hskipped⟩
    · cases hobject
    · cases hsame
      exact hskipped
  have hlisting : host.sessionFiles.filterMap Except.toOption =
      (host.sessionFiles.filter holdsObject).filterMap Except.toOption := by
    rw [List.filterMap_filter]
    refine List.filterMap_congr fun file hfile => ?_
    rcases h file hfile with ⟨members, rfl⟩ | ⟨exception, rfl, -⟩
    · rfl
    · rfl
  rw [listing_of_files.mpr ⟨hdropped, rfl⟩]
  exact listing_of_files.mpr
    ⟨fun exception hmem => hdropped exception (List.mem_filter.mp hmem).1, hlisting⟩

/-! ## The live sessions -/

/-- Only objects have a pid to be asked for. -/
theorem isObject_of_liveAmong (h : liveAmong kill all = .ok live) :
    ∀ data ∈ all, data.isObject = true := by
  induction all generalizing live with
  | nil => exact fun data hdata => absurd hdata List.not_mem_nil
  | cons first rest ih =>
      obtain ⟨pid, hpid, hnext⟩ := exists_of_bind_ok h
      obtain ⟨alive, -, hnext⟩ := exists_of_bind_ok hnext
      obtain ⟨others, hothers, -⟩ := exists_of_bind_ok hnext
      intro data hdata
      rcases List.mem_cons.mp hdata with rfl | hrest
      · by_contra hnot
        rw [Json.get_of_not_isObject (eq_false_of_ne_true hnot)] at hpid
        cases hpid
      · exact ih hothers data hrest

theorem isPidAlive_of_probeable (hkill : SignalsZero kill) {pid : Json}
    (h : Probeable kill pid) : ∃ alive, isPidAlive kill pid = .ok alive := by
  obtain ⟨alive, hprobe⟩ := probe_of_probeable hkill h
  unfold probe at hprobe
  rcases h with rfl | ⟨number, hnumber, -⟩
  · exact ⟨false, rfl⟩
  · have hnone : ¬ pid.isNone = true := by
      cases pid <;> first | exact Bool.false_ne_true | cases hnumber
    rw [if_neg hnone] at hprobe
    exact ⟨_, hprobe⟩

theorem liveAmong_returns (hkill : SignalsZero kill)
    (h : ∀ data ∈ all, data.isObject = true ∧ Probeable kill ((data.get? "pid").getD .null)) :
    ∃ live, liveAmong kill all = .ok live := by
  induction all with
  | nil => exact ⟨[], rfl⟩
  | cons data rest ih =>
      obtain ⟨hobject, hpid⟩ := h data List.mem_cons_self
      obtain ⟨alive, halive⟩ := isPidAlive_of_probeable hkill hpid
      obtain ⟨others, hothers⟩ := ih fun other hother => h other (List.mem_cons_of_mem _ hother)
      refine ⟨if alive then data :: others else others, ?_⟩
      unfold liveAmong
      rw [Json.get_of_isObject hobject, ok_bind, halive, ok_bind, hothers]
      rfl

/-! ## What ignoring comes to -/

/-- Everything reads the files through the one loop. -/
theorem malformedIgnored_of_objectFiles (h : ObjectFiles host) (hkill : SignalsZero host.kill)
    (hpids : PidsInRange host) : MalformedIgnored host := by
  have hread := readSessionFiles_tidied h
  have hfind : findSessionFile host.tidied.sessionFiles = findSessionFile host.sessionFiles := by
    funext sessionId
    unfold findSessionFile
    rw [hread]
  have hlist : listLiveSessions host.tidied = listLiveSessions host := by
    unfold listLiveSessions
    rw [hread]
    rfl
  have hidentity : resolveIdentity host.tidied = resolveIdentity host := by
    unfold resolveIdentity
    rw [hfind]
  refine ⟨fun sessionId => ?_, ?_, fun now registry => ?_, fun repr event now registry => ?_⟩
  · obtain ⟨found, hfound⟩ := findSessionFile_returns h sessionId
    exact ⟨found, hfound, by rw [hfind, hfound]⟩
  · obtain ⟨all, hall, hobjects⟩ := readSessionFiles_returns h
    have hasked : ∀ data ∈ all, data.isObject = true ∧
        Probeable host.kill ((data.get? "pid").getD .null) := by
      intro data hdata
      have hobject := hobjects data hdata
      rw [(listing_of_files.mp hall).2] at hdata
      obtain ⟨file, hfile, hvalue⟩ := List.mem_filterMap.mp hdata
      rw [toOption_eq_some_iff.mp hvalue] at hfile
      exact ⟨hobject, hpids data hfile hobject⟩
    obtain ⟨live, hlive⟩ := liveAmong_returns hkill hasked
    have hreturns : listLiveSessions host = .ok live := by
      unfold listLiveSessions
      rw [hall]
      exact hlive
    exact ⟨live, hreturns, by rw [hlist, hreturns]⟩
  · unfold coldStart
    rw [hlist]
  · unfold SessionRegistry.applyEvent
    rw [hidentity]

/-- **When malformed session files are ignored.**  Nothing raises and nothing notices them
exactly when each file is an object, cannot be read or is not JSON: bytes that are no UTF-8
are not dropped, nor is JSON that is no object. -/
theorem malformed_ignored_iff (host : Host) (hkill : SignalsZero host.kill)
    (hpids : PidsInRange host) : MalformedIgnored host ↔ ObjectFiles host := by
  refine ⟨fun h file hfile => ?_, fun h => malformedIgnored_of_objectFiles h hkill hpids⟩
  -- the enumeration sees every file
  obtain ⟨live, hlive, -⟩ := h.enumeration
  obtain ⟨all, hall, hamong⟩ := exists_of_bind_ok hlive
  obtain ⟨hdropped, rfl⟩ := listing_of_files.mp hall
  cases file with
  | error exception => exact .inr ⟨exception, rfl, hdropped exception hfile⟩
  | ok data =>
      have hobject := isObject_of_liveAmong hamong data
        (List.mem_filterMap.mpr ⟨.ok data, hfile, rfl⟩)
      obtain ⟨members, rfl⟩ := Json.isObject_iff.mp hobject
      exact .inl ⟨members, rfl⟩

/-! ### One list among the session files -/

/-- A directory with those files on a machine where process 200 alone is running. -/
def holding (files : List (Except PyErr Json)) : Host :=
  { only200Running with sessionFiles := files }

/-- The session file of a running session. -/
def running200 : Json :=
  .obj [("sessionId", .str "s1"), ("pid", .int 200)]

theorem pidsInRange_running200 {broken : List (Except PyErr Json)}
    (hbroken : ∀ file ∈ broken, holdsObject file = false) :
    PidsInRange (holding (.ok running200 :: broken)) := by
  intro data hdata hobject
  rcases List.mem_cons.mp hdata with hsame | hrest
  · cases hsame
    exact .inr ⟨200, rfl, fun h => by cases h⟩
  · exact absurd hobject (ne_true_of_eq_false (hbroken _ hrest))

/-- A file that holds `[]` keeps the daemon from starting. -/
theorem list_not_ignored :
    ¬ ∀ host : Host, SignalsZero host.kill → PidsInRange host → MalformedIgnored host := by
  intro hclaim
  obtain ⟨-, ⟨live, hlive, -⟩, -, -⟩ := hclaim (holding [.ok running200, .ok (.arr [])])
    signalsZero_only200Running (pidsInRange_running200 (by decide))
  have hraises : listLiveSessions (holding [.ok running200, .ok (.arr [])]) =
      .error .attributeError := rfl
  rw [hraises] at hlive
  cases hlive

/-- A file that cannot be read and one that is not JSON. -/
theorem malformed_ignored_beside_running :
    MalformedIgnored (holding [.ok running200, .error .permissionError, .error .jsonDecodeError]) :=
  (malformed_ignored_iff (holding
      [.ok running200, .error .permissionError, .error .jsonDecodeError])
    signalsZero_only200Running (pidsInRange_running200 (by decide))).mpr (by
      intro file hfile
      simp only [holding, List.mem_cons, List.not_mem_nil, or_false] at hfile
      rcases hfile with rfl | rfl | rfl
      · exact .inl ⟨_, rfl⟩
      · exact .inr ⟨.permissionError, rfl, rfl⟩
      · exact .inr ⟨.jsonDecodeError, rfl, rfl⟩)

end Daemon
end SiliconOffice
