import SiliconOffice.Frontend.Usage
import SiliconOffice.Library.Runs
import SiliconOffice.Library.Stamps

/-!
# The usage tracker and its file cache

`_refresh` in the steps between which a transcript can change: the visit of a path, which is
`stat` and the cache lookup, `open`, the reading of one line, and the assignment of the
results at the end.  A run interleaves these steps with files that are created, appended to
and deleted.

`Sound` ties each cached usage to what its file was when it was scanned; `exact_of_run` says
that no refresh over files at rest can tell a tracker with a history from a fresh one.
-/

namespace SiliconOffice
namespace Frontend

open Library Python Common

/-! ## Files, the tracker and a refresh -/

/-- A transcript.  A reader that has it open can go on reading it after it was deleted. -/
structure File where
  lines : List (Except PyErr String)
  size : ℕ
  mtime : ℚ
  present : Bool

/-- `_FileUsage`. -/
structure FileUsage where
  mtime : ℚ
  size : ℕ
  entries : List UsageEntry

/-- `UsageTracker`, with the four totals as `snapshot` returns them. -/
structure UsageTracker where
  fileCache : OrderedDict String FileUsage := .empty
  published : UsageSnapshot := {}

/-- How far `_scan_file` has come in an open file. -/
structure Reading where
  position : ℕ
  entries : List UsageEntry

/-- A scan, from the `stat` before it; the file may not be open yet. -/
structure Scanning where
  path : String
  mtime : ℚ
  size : ℕ
  reading : Option Reading := none

/-- The local variables of `_refresh`; `listing` is what `rglob` has still to give. -/
structure Refreshing where
  cutoffs : Cutoffs
  listing : List String
  freshCache : OrderedDict String FileUsage := .empty
  totals : UsageSnapshot := {}
  scanning : Option Scanning := none

/-- What the loop of `_run` is at; an exception from `_refresh` is swallowed there. -/
inductive Activity
  | waiting
  | raised (exception : PyErr)
  | refreshing (refresh : Refreshing)

namespace Usage

structure State where
  disk : String → Option File
  tracker : UsageTracker
  activity : Activity

/-- The refresh has come this far. -/
def State.during (state : State) (refresh : Refreshing) : State :=
  { state with activity := .refreshing refresh }

/-- The refresh goes on, or an exception ends it. -/
def State.after (state : State) : Except PyErr Refreshing → State
  | .ok refresh => state.during refresh
  | .error exception => { state with activity := .raised exception }

/-- `path.stat()`. -/
def stat (disk : String → Option File) (path : String) : Option File :=
  (disk path).filter (·.present)

end Usage

namespace Refreshing

/-- A usage goes into the new cache and into the totals. -/
def count (refresh : Refreshing) (path : String) (usage : FileUsage) : Refreshing :=
  { refresh with
    freshCache := refresh.freshCache.store path usage
    totals := account refresh.cutoffs refresh.totals usage.entries
    scanning := none }

/-- `_scan_file` has returned. -/
def scanned (refresh : Refreshing) (scanning : Scanning) (entries : List UsageEntry) :
    Refreshing :=
  refresh.count scanning.path ⟨scanning.mtime, scanning.size, entries⟩

/-- `_scan_file` is at this point of the file. -/
def reading (refresh : Refreshing) (scanning : Scanning) (position : ℕ)
    (entries : List UsageEntry) : Refreshing :=
  { refresh with scanning := some { scanning with reading := some ⟨position, entries⟩ } }

/-- The body of the loop over the paths, up to `_scan_file`. -/
def visit (disk : String → Option File) (cache : OrderedDict String FileUsage)
    (refresh : Refreshing) (path : String) : Refreshing :=
  match Usage.stat disk path with
  | none => refresh
  | some file =>
      match (cache.get? path).filter fun cached =>
          cached.mtime = file.mtime ∧ cached.size = file.size with
      | some cached => refresh.count path cached
      | none => { refresh with scanning := some ⟨path, file.mtime, file.size, none⟩ }

/-- `open`, and then the next line or the end of the file. -/
def read (reader : UsageReader) (disk : String → Option File) (refresh : Refreshing)
    (scanning : Scanning) : Except PyErr Refreshing :=
  match scanning.reading with
  | none =>
      if (Usage.stat disk scanning.path).isSome then .ok (refresh.reading scanning 0 [])
      else .ok (refresh.scanned scanning [])
  | some reading =>
      match (disk scanning.path).bind fun file => file.lines[reading.position]? with
      | none => .ok (refresh.scanned scanning reading.entries)
      | some line =>
          match reader.scanReading line with
          | .ok yielded =>
              .ok (refresh.reading scanning (reading.position + 1)
                (reading.entries ++ yielded.toList))
          | .error exception =>
              if exception.isOSError then .ok (refresh.scanned scanning reading.entries)
              else .error exception

end Refreshing

namespace Usage

/-- One step of `_refresh`. -/
def advance (reader : UsageReader) (state : State) : Option State :=
  match state.activity with
  | .refreshing refresh =>
      match refresh.scanning, refresh.listing with
      | some scanning, _ => some (state.after (refresh.read reader state.disk scanning))
      | none, path :: rest =>
          let refresh := { refresh with listing := rest }
          some (state.during (refresh.visit state.disk state.tracker.fileCache path))
      | none, [] =>
          some { state with tracker := ⟨refresh.freshCache, refresh.totals⟩, activity := .waiting }
  | _ => none

inductive Action
  /-- A transcript appears under a path that never had one. -/
  | create (path : String) (lines : List (Except PyErr String)) (size : ℕ) (mtime : ℚ)
  /-- Lines are appended, which leaves the file larger than it was. -/
  | append (path : String) (lines : List (Except PyErr String)) (size : ℕ) (mtime : ℚ)
  | delete (path : String)
  /-- `_refresh` is called at the time `now`, and `rglob` will give the listing. -/
  | begin (now : ℚ) (listing : List String)
  | advance
  /-- `open` or the reading of a line fails with an `OSError`. -/
  | fail

/-- The lines that an action writes. -/
def Action.lines : Action → List (Except PyErr String)
  | .create _ lines _ _ | .append _ lines _ _ => lines
  | _ => []

/-- Put a file on the disk. -/
def put (state : State) (path : String) (file : File) : State :=
  { state with disk := Function.update state.disk path (some file) }

def step (reader : UsageReader) (state : State) : Action → Option State
  | .create path lines size mtime =>
      if (state.disk path).isNone then some (put state path ⟨lines, size, mtime, true⟩) else none
  | .append path lines size mtime =>
      (stat state.disk path).bind fun file =>
        if file.size < size then
          some (put state path ⟨file.lines ++ lines, size, mtime, true⟩)
        else none
  | .delete path =>
      (stat state.disk path).map fun file => put state path { file with present := false }
  | .begin now listing =>
      match state.activity with
      | .refreshing _ => none
      | _ => some (state.during { cutoffs := reader.cutoffs now, listing })
  | .advance => advance reader state
  | .fail =>
      match state.activity with
      | .refreshing refresh =>
          refresh.scanning.map fun scanning =>
            state.during
              (refresh.scanned scanning ((scanning.reading.map Reading.entries).getD []))
      | _ => none

/-- No file yet, and a tracker that was just made. -/
def initial : State := ⟨fun _ => none, {}, .waiting⟩

/-! ## What the cache is worth -/

/-- The entries that a scan of the file as it is gives. -/
def Right (reader : UsageReader) (file : File) (entries : List UsageEntry) : Prop :=
  file.present = true → reader.scanFile file.lines = .ok entries

def Remembers (reader : UsageReader) (disk : String → Option File) (path : String)
    (usage : FileUsage) : Prop :=
  ∃ file, disk path = some file ∧
    Faithful File.size (Right reader) file usage.size usage.entries

/-- What a scan has read is the beginning of the file, which was no larger at the `stat`. -/
def InStep (reader : UsageReader) (disk : String → Option File) (scanning : Scanning) : Prop :=
  ∃ file, disk scanning.path = some file ∧ scanning.size ≤ file.size ∧
    ∀ reading, scanning.reading = some reading →
      reading.position ≤ file.lines.length ∧
        reader.Scanned (file.lines.take reading.position) reading.entries

structure SoundRefresh (reader : UsageReader) (disk : String → Option File)
    (refresh : Refreshing) : Prop where
  cache : ∀ path usage, refresh.freshCache.get? path = some usage →
    Remembers reader disk path usage
  scanning : ∀ scanning, refresh.scanning = some scanning → InStep reader disk scanning

structure Sound (reader : UsageReader) (state : State) : Prop where
  cache : ∀ path usage, state.tracker.fileCache.get? path = some usage →
    Remembers reader state.disk path usage
  refresh : ∀ refresh, state.activity = .refreshing refresh →
    SoundRefresh reader state.disk refresh

/-- Lines are only added, and never without a larger size. -/
structure Grows (reader : UsageReader) (before after : File) : Prop where
  lines : before.lines <+: after.lines
  advances : Advances File.size (Right reader) before after

variable {reader : UsageReader} {disk disk' : String → Option File} {state before after : State}
  {refresh refresh' : Refreshing} {scanning : Scanning} {path : String} {file : File}
  {usage : FileUsage} {entries : List UsageEntry}

theorem stat_eq_some_iff :
    stat disk path = some file ↔ disk path = some file ∧ file.present = true :=
  Option.filter_eq_some_iff

theorem disk_put_self (state : State) (path : String) (file : File) :
    (put state path file).disk path = some file := Function.update_self ..

theorem disk_put_of_ne (state : State) (file : File) {other : String} (h : other ≠ path) :
    (put state path file).disk other = state.disk other := Function.update_of_ne h ..

/-! ## The world moves on -/

section growth

variable (hgrows : ∀ path file, disk path = some file →
  ∃ file', disk' path = some file' ∧ Grows reader file file')

include hgrows

theorem Remembers.grow (h : Remembers reader disk path usage) :
    Remembers reader disk' path usage := by
  obtain ⟨file, hfile, hfaithful⟩ := h
  obtain ⟨file', hfile', hgrown⟩ := hgrows path file hfile
  exact ⟨file', hfile', hfaithful.advance hgrown.advances⟩

theorem InStep.grow (h : InStep reader disk scanning) : InStep reader disk' scanning := by
  obtain ⟨file, hfile, hsize, hreading⟩ := h
  obtain ⟨file', hfile', hgrown⟩ := hgrows scanning.path file hfile
  refine ⟨file', hfile', hsize.trans hgrown.advances.le, fun reading hopen => ?_⟩
  obtain ⟨hposition, hscanned⟩ := hreading reading hopen
  obtain ⟨more, hmore⟩ := hgrown.lines
  rw [← hmore, List.length_append, List.take_append_of_le_length hposition]
  exact ⟨hposition.trans (Nat.le_add_right _ _), hscanned⟩

theorem SoundRefresh.grow (h : SoundRefresh reader disk refresh) :
    SoundRefresh reader disk' refresh where
  cache path usage hcached := (h.cache path usage hcached).grow hgrows
  scanning scanning hscanning := (h.scanning scanning hscanning).grow hgrows

end growth

/-- A file that is put on the disk is a new one, or one that has grown. -/
theorem Sound.put (h : Sound reader state)
    (hgrows : ∀ old, state.disk path = some old → Grows reader old file) :
    Sound reader (put state path file) := by
  have hdisk : ∀ other old, state.disk other = some old →
      ∃ file', (Usage.put state path file).disk other = some file' ∧ Grows reader old file' := by
    intro other old hold
    by_cases hother : other = path
    · subst hother
      exact ⟨file, disk_put_self .., hgrows old hold⟩
    · exact ⟨old, (disk_put_of_ne state file hother).trans hold, List.prefix_rfl, .refl old⟩
  exact ⟨fun other usage hcached => (h.cache other usage hcached).grow hdisk,
    fun refresh hrefresh => (h.refresh refresh hrefresh).grow hdisk⟩

/-! ## The refresh moves on -/

theorem SoundRefresh.count (h : SoundRefresh reader disk refresh)
    (husage : Remembers reader disk path usage) :
    SoundRefresh reader disk (refresh.count path usage) where
  cache other usage' hcached := by
    unfold Refreshing.count at hcached
    rw [OrderedDict.get?_store] at hcached
    split at hcached
    · rename_i hother
      obtain rfl := eq_of_beq hother
      cases hcached
      exact husage
    · exact h.cache other usage' hcached
  scanning scanning hscanning := by cases hscanning

theorem SoundRefresh.visit {cache : OrderedDict String FileUsage}
    (h : SoundRefresh reader disk refresh)
    (hcache : ∀ path usage, cache.get? path = some usage → Remembers reader disk path usage)
    (path : String) : SoundRefresh reader disk (refresh.visit disk cache path) := by
  unfold Refreshing.visit
  split
  · exact h
  · rename_i file hstat
    split
    · rename_i cached hcached
      exact h.count (hcache path cached (Option.filter_eq_some_iff.mp hcached).1)
    · refine ⟨h.cache, ?_⟩
      rintro scanning ⟨⟩
      exact ⟨file, (stat_eq_some_iff.mp hstat).1, le_rfl, fun reading hopen => by cases hopen⟩

theorem SoundRefresh.read (h : SoundRefresh reader disk refresh)
    (hscanning : refresh.scanning = some scanning)
    (hread : refresh.read reader disk scanning = .ok refresh') :
    SoundRefresh reader disk refresh' := by
  obtain ⟨file, hfile, hsize, hreading⟩ := h.scanning scanning hscanning
  -- the scan may end with entries that are right for the file as it is now
  have hends : ∀ entries, Right reader file entries →
      SoundRefresh reader disk (refresh.scanned scanning entries) := fun entries hright =>
    h.count ⟨file, hfile, .of_right hsize hright⟩
  have hgoes : ∀ position entries, position ≤ file.lines.length →
      reader.Scanned (file.lines.take position) entries →
      SoundRefresh reader disk (refresh.reading scanning position entries) := by
    intro position entries hposition hscanned
    refine ⟨h.cache, ?_⟩
    rintro _ ⟨⟩
    refine ⟨file, hfile, hsize, ?_⟩
    rintro _ ⟨⟩
    exact ⟨hposition, hscanned⟩
  unfold Refreshing.read at hread
  split at hread
  · split at hread
    · cases hread
      exact hgoes 0 [] (Nat.zero_le _) UsageReader.scanned_nil
    · rename_i hgone
      cases hread
      refine hends [] fun hpresent => absurd ?_ hgone
      rw [stat_eq_some_iff.mpr ⟨hfile, hpresent⟩]
      rfl
  · rename_i reading hopen
    obtain ⟨hposition, hscanned⟩ := hreading reading hopen
    rw [hfile, Option.bind_some] at hread
    split at hread
    · rename_i hend
      cases hread
      rw [List.take_of_length_le (List.getElem?_eq_none_iff.mp hend)] at hscanned
      exact hends reading.entries fun _ => hscanned.whole
    · rename_i line hline
      obtain ⟨hshort, -⟩ := List.getElem?_eq_some_iff.mp hline
      split at hread
      · rename_i yielded hentry
        cases hread
        refine hgoes _ _ hshort ?_
        rw [List.take_add_one, hline]
        exact hscanned.next hentry
      · rename_i exception hexception
        split at hread
        · rename_i hos
          cases hread
          refine hends reading.entries fun _ => ?_
          have hwhole := hscanned.broken hexception hos (file.lines.drop (reading.position + 1))
          rwa [← (List.getElem?_eq_some_iff.mp hline).2, ← List.drop_eq_getElem_cons hshort,
            List.take_append_drop] at hwhole
        · cases hread

theorem Sound.advance (h : Sound reader before) (htaken : advance reader before = some after) :
    Sound reader after := by
  unfold Usage.advance at htaken
  split at htaken
  · rename_i refresh hactivity
    have hrefresh := h.refresh refresh hactivity
    split at htaken
    · rename_i scanning hscanning
      cases htaken
      cases hread : refresh.read reader before.disk scanning with
      | ok refresh' =>
          refine ⟨h.cache, ?_⟩
          rintro _ ⟨⟩
          exact hrefresh.read hscanning hread
      | error exception => exact ⟨h.cache, fun refresh hother => by cases hother⟩
    · rename_i path rest _ _
      cases htaken
      have hrest : SoundRefresh reader before.disk { refresh with listing := rest } :=
        ⟨hrefresh.cache, hrefresh.scanning⟩
      refine ⟨h.cache, ?_⟩
      rintro _ ⟨⟩
      exact hrest.visit h.cache path
    · cases htaken
      exact ⟨hrefresh.cache, fun refresh hother => by cases hother⟩
  · cases htaken

theorem Sound.step {action : Action} (h : Sound reader before) (haction : action ≠ .fail)
    (htaken : step reader before action = some after) : Sound reader after := by
  cases action with
  | create path lines size mtime =>
      rw [Usage.step] at htaken
      split at htaken
      · rename_i hnone
        cases htaken
        refine h.put fun old hold => ?_
        rw [hold] at hnone
        cases hnone
      · cases htaken
  | append path lines size mtime =>
      obtain ⟨file, hstat, htaken⟩ := Option.bind_eq_some_iff.mp htaken
      split at htaken
      · rename_i hsize
        cases htaken
        refine h.put fun old hold => ?_
        obtain rfl : file = old := Option.some.inj ((stat_eq_some_iff.mp hstat).1.symm.trans hold)
        exact ⟨List.prefix_append _ _, .inl hsize⟩
      · cases htaken
  | delete path =>
      obtain ⟨file, hstat, rfl⟩ := Option.map_eq_some_iff.mp htaken
      refine h.put fun old hold => ?_
      obtain rfl : file = old := Option.some.inj ((stat_eq_some_iff.mp hstat).1.symm.trans hold)
      exact ⟨List.prefix_rfl, .inr ⟨rfl, fun entries _ hpresent => by cases hpresent⟩⟩
  | begin now listing =>
      have hbegun : after = before.during { cutoffs := reader.cutoffs now, listing } := by
        rw [Usage.step] at htaken
        split at htaken
        · cases htaken
        · exact (Option.some.inj htaken).symm
      subst hbegun
      refine ⟨h.cache, ?_⟩
      rintro _ ⟨⟩
      constructor
      · rintro path usage ⟨⟩
      · rintro scanning ⟨⟩
  | advance => exact h.advance htaken
  | fail => exact absurd rfl haction

theorem sound_initial : Sound reader initial := by
  constructor
  · rintro path usage ⟨⟩
  · rintro refresh ⟨⟩

/-- An empty cache is sound. -/
theorem Sound.fresh (h : Sound reader state) : Sound reader { state with tracker := {} } :=
  ⟨fun path usage hcached => (by cases hcached), h.refresh⟩

/-! ## What is on the disk -/

theorem eq_or_of_disk_put {other : String} {file' : File}
    (h : (put state path file).disk other = some file') :
    file' = file ∨ state.disk other = some file' := by
  by_cases hother : other = path
  · subst hother
    rw [disk_put_self] at h
    exact .inl (Option.some.inj h).symm
  · rw [disk_put_of_ne state file hother] at h
    exact .inr h

@[simp] theorem disk_after (state : State) (result : Except PyErr Refreshing) :
    (state.after result).disk = state.disk := by
  cases result <;> rfl

theorem disk_advance (htaken : advance reader before = some after) : after.disk = before.disk := by
  unfold Usage.advance at htaken
  split at htaken
  · split at htaken
    · cases htaken
      exact disk_after ..
    · cases htaken
      rfl
    · cases htaken
      rfl
  · cases htaken

/-- A line on the disk was there before or has just been written. -/
theorem line_of_step {action : Action} {line : Except PyErr String}
    (htaken : step reader before action = some after) (hfile : after.disk path = some file)
    (hline : line ∈ file.lines) :
    line ∈ action.lines ∨ ∃ path old, before.disk path = some old ∧ line ∈ old.lines := by
  cases action with
  | create other lines size mtime =>
      rw [Usage.step] at htaken
      split at htaken
      · cases htaken
        rcases eq_or_of_disk_put hfile with rfl | hold
        · exact .inl hline
        · exact .inr ⟨path, file, hold, hline⟩
      · cases htaken
  | append other lines size mtime =>
      obtain ⟨old, hstat, htaken⟩ := Option.bind_eq_some_iff.mp htaken
      split at htaken
      · cases htaken
        rcases eq_or_of_disk_put hfile with rfl | hold
        · exact (List.mem_append.mp hline).symm.imp_right fun hbefore =>
            ⟨other, old, (stat_eq_some_iff.mp hstat).1, hbefore⟩
        · exact .inr ⟨path, file, hold, hline⟩
      · cases htaken
  | delete other =>
      obtain ⟨old, hstat, rfl⟩ := Option.map_eq_some_iff.mp htaken
      rcases eq_or_of_disk_put hfile with rfl | hold
      · exact .inr ⟨other, old, (stat_eq_some_iff.mp hstat).1, hline⟩
      · exact .inr ⟨path, file, hold, hline⟩
  | begin now listing =>
      rw [Usage.step] at htaken
      split at htaken
      · cases htaken
      · cases htaken
        exact .inr ⟨path, file, hfile, hline⟩
  | advance =>
      rw [disk_advance htaken] at hfile
      exact .inr ⟨path, file, hfile, hline⟩
  | fail =>
      rw [Usage.step] at htaken
      split at htaken
      · obtain ⟨scanning, -, rfl⟩ := Option.map_eq_some_iff.mp htaken
        exact .inr ⟨path, file, hfile, hline⟩
      · cases htaken

/-! ## A refresh over files at rest -/

/-- A step of the refresh, with nothing happening on the disk. -/
def Advance (reader : UsageReader) (before after : State) : Prop :=
  advance reader before = some after

/-- The usages of the present files, scanned one after the other. -/
def scanFiles (reader : UsageReader) (disk : String → Option File) :
    List String → Except PyErr (List UsageEntry)
  | [] => .ok []
  | path :: rest =>
      match stat disk path with
      | none => scanFiles reader disk rest
      | some file => do
          let entries ← reader.scanFile file.lines
          let others ← scanFiles reader disk rest
          .ok (entries ++ others)

theorem advance_reading (reader : UsageReader) (state : State) (refresh : Refreshing) (position : ℕ)
    (entries : List UsageEntry) (hfile : state.disk scanning.path = some file) :
    Advance reader (state.during (refresh.reading scanning position entries))
      (state.after (match file.lines[position]? with
        | none => .ok (refresh.scanned scanning entries)
        | some line =>
            match reader.scanReading line with
            | .ok yielded =>
                .ok (refresh.reading scanning (position + 1) (entries ++ yielded.toList))
            | .error exception =>
                if exception.isOSError then .ok (refresh.scanned scanning entries)
                else .error exception)) := by
  have hread : Advance reader (state.during (refresh.reading scanning position entries))
      (state.after (Refreshing.read reader state.disk
        (refresh.reading scanning position entries)
        { scanning with reading := some ⟨position, entries⟩ })) := rfl
  unfold Refreshing.read at hread
  dsimp only at hread
  rw [hfile] at hread
  exact hread

/-- From any line of an open file on. -/
theorem reads_rest (done rest : List (Except PyErr String)) (entries : List UsageEntry)
    (hfile : state.disk scanning.path = some file) (hlines : file.lines = done ++ rest) :
    Relation.ReflTransGen (Advance reader)
      (state.during (refresh.reading scanning done.length entries))
      (state.after ((reader.scanFile rest).map fun others =>
        refresh.scanned scanning (entries ++ others))) := by
  -- on the lines that are left: what has been read of the file is `done`
  induction rest generalizing done entries with
  | nil =>
      have hread := advance_reading reader state refresh done.length entries hfile
      rw [hlines, List.append_nil, List.getElem?_eq_none le_rfl] at hread
      refine .single ?_
      simpa [UsageReader.scanFile, Except.map] using hread
  | cons line rest ih =>
      have hread := advance_reading reader state refresh done.length entries hfile
      have hnext : file.lines[done.length]? = some line := by
        rw [hlines, List.getElem?_append_right le_rfl, Nat.sub_self, List.getElem?_cons_zero]
      rw [hnext] at hread
      dsimp only at hread
      cases hline : reader.scanReading line with
      | ok yielded =>
          rw [hline] at hread
          have hrest := ih (done ++ [line]) (entries ++ yielded.toList)
            (by rw [hlines, List.append_cons])
          rw [List.length_append, List.length_singleton] at hrest
          simp only [List.append_assoc] at hrest
          rw [UsageReader.scanFile_next hline, map_map]
          exact .head hread hrest
      | error exception =>
          rw [hline] at hread
          dsimp only at hread
          refine .single ?_
          rw [UsageReader.scanFile, hline]
          dsimp only
          split at hread
          · rename_i hos
            rw [if_pos hos]
            simpa [Except.map] using hread
          · rename_i hos
            rw [if_neg hos]
            exact hread

theorem advance_visit (reader : UsageReader) (state : State) (path : String) (cutoffs : Cutoffs)
    (rest : List String) (fresh : OrderedDict String FileUsage) (totals : UsageSnapshot) :
    Advance reader (state.during ⟨cutoffs, path :: rest, fresh, totals, none⟩)
      (state.during (Refreshing.visit state.disk state.tracker.fileCache
        ⟨cutoffs, rest, fresh, totals, none⟩ path)) := rfl

/-- A present file, found in the cache or scanned. -/
theorem visits (h : Sound reader state) (hstat : stat state.disk path = some file)
    (cutoffs : Cutoffs) (rest : List String) (fresh : OrderedDict String FileUsage)
    (totals : UsageSnapshot) :
    ∃ cache : List UsageEntry → OrderedDict String FileUsage,
      Relation.ReflTransGen (Advance reader)
        (state.during ⟨cutoffs, path :: rest, fresh, totals, none⟩)
        (state.after ((reader.scanFile file.lines).map fun entries =>
          ⟨cutoffs, rest, cache entries, account cutoffs totals entries, none⟩)) := by
  obtain ⟨hfile, hpresent⟩ := stat_eq_some_iff.mp hstat
  have hvisit := advance_visit reader state path cutoffs rest fresh totals
  unfold Refreshing.visit at hvisit
  rw [hstat] at hvisit
  dsimp only at hvisit
  split at hvisit
  · rename_i cached hcached
    obtain ⟨hfound, hsame⟩ := Option.filter_eq_some_iff.mp hcached
    obtain ⟨file', hfile', hfaithful⟩ := h.cache path cached hfound
    obtain rfl : file = file' := Option.some.inj (hfile.symm.trans hfile')
    -- the sizes agree, so what was scanned is what a scan gives now
    rw [hfaithful.right (of_decide_eq_true hsame).2 hpresent]
    exact ⟨fun _ => fresh.store path cached, .single hvisit⟩
  · have hopen : Advance reader
        (state.during ⟨cutoffs, rest, fresh, totals,
          some ⟨path, file.mtime, file.size, none⟩⟩)
        (state.during (Refreshing.reading ⟨cutoffs, rest, fresh, totals, none⟩
          ⟨path, file.mtime, file.size, none⟩ 0 [])) := by
      simp [Advance, advance, State.during, State.after, Refreshing.read, hstat,
        Refreshing.reading]
    exact ⟨_, .head hvisit (.head hopen (reads_rest [] file.lines [] hfile rfl))⟩

theorem scanFiles_next (hstat : stat disk path = some file)
    (hscan : reader.scanFile file.lines = .ok entries) (rest : List String) :
    scanFiles reader disk (path :: rest) = (scanFiles reader disk rest).map (entries ++ ·) := by
  rw [scanFiles, hstat]
  dsimp only
  rw [hscan, ok_bind]
  cases scanFiles reader disk rest <;> rfl

theorem scanFiles_raises {exception : PyErr} (hstat : stat disk path = some file)
    (hscan : reader.scanFile file.lines = .error exception) (rest : List String) :
    scanFiles reader disk (path :: rest) = .error exception := by
  rw [scanFiles, hstat]
  dsimp only
  rw [hscan]
  rfl

/-- The whole loop. -/
theorem loops (h : Sound reader state) (cutoffs : Cutoffs) (listing : List String)
    (fresh : OrderedDict String FileUsage) (totals : UsageSnapshot) :
    ∃ cache, Relation.ReflTransGen (Advance reader)
      (state.during ⟨cutoffs, listing, fresh, totals, none⟩)
      (state.after ((scanFiles reader state.disk listing).map fun entries =>
        ⟨cutoffs, [], cache, account cutoffs totals entries, none⟩)) := by
  induction listing generalizing fresh totals with
  | nil => exact ⟨fresh, .refl⟩
  | cons path rest ih =>
      cases hstat : stat state.disk path with
      | none =>
          have hvisit := advance_visit reader state path cutoffs rest fresh totals
          unfold Refreshing.visit at hvisit
          rw [hstat] at hvisit
          rw [scanFiles, hstat]
          obtain ⟨cache, hrest⟩ := ih fresh totals
          exact ⟨cache, .head hvisit hrest⟩
      | some file =>
          obtain ⟨visited, hvisit⟩ := visits h hstat cutoffs rest fresh totals
          cases hscan : reader.scanFile file.lines with
          | error exception =>
              rw [hscan] at hvisit
              rw [scanFiles_raises hstat hscan]
              exact ⟨fresh, hvisit⟩
          | ok entries =>
              rw [hscan] at hvisit
              obtain ⟨cache, hrest⟩ := ih (visited entries) (account cutoffs totals entries)
              simp only [← account_append] at hrest
              rw [scanFiles_next hstat hscan]
              refine ⟨cache, hvisit.trans ?_⟩
              rw [map_map]
              exact hrest

/-- A refresh at `now` publishes these totals, when no file changes until it ends. -/
def Publishes (reader : UsageReader) (state : State) (now : ℚ) (listing : List String)
    (totals : UsageSnapshot) : Prop :=
  ∃ begun cache, step reader state (.begin now listing) = some begun ∧
    Relation.ReflTransGen (Advance reader) begun
      { state with tracker := ⟨cache, totals⟩, activity := .waiting }

/-- No refresh is under way. -/
def Idle (state : State) : Prop :=
  ∀ refresh, state.activity ≠ .refreshing refresh

theorem begins (hidle : Idle state) (now : ℚ) (listing : List String) :
    step reader state (.begin now listing) =
      some (state.during ⟨reader.cutoffs now, listing, .empty, {}, none⟩) := by
  rw [step]
  split
  · rename_i refresh hactivity
    exact absurd hactivity (hidle refresh)
  · rfl

/-- With a sound cache a refresh publishes what scanning every file would give, and nothing
when a scan raises. -/
theorem publishes_iff (h : Sound reader state) (hidle : Idle state) (now : ℚ)
    (listing : List String) (totals : UsageSnapshot) :
    Publishes reader state now listing totals ↔
      ∃ entries, scanFiles reader state.disk listing = .ok entries ∧
        totals = snapshotOf (reader.cutoffs now) entries := by
  obtain ⟨cache, hloop⟩ := loops h (reader.cutoffs now) listing .empty {}
  constructor
  · rintro ⟨begun, cache', hbegun, hpublished⟩
    rw [begins hidle, Option.some.injEq] at hbegun
    subst hbegun
    cases hscan : scanFiles reader state.disk listing with
    | error exception =>
        rw [hscan] at hloop
        have hsame := final_unique hpublished hloop rfl rfl
        cases congrArg State.activity hsame
    | ok entries =>
        rw [hscan] at hloop
        have hends := hloop.tail (show Advance reader _ _ from rfl)
        have hsame := congrArg (·.tracker.published) (final_unique hpublished hends rfl rfl)
        exact ⟨entries, rfl, hsame.trans (account_eq ..)⟩
  · rintro ⟨entries, hscan, rfl⟩
    rw [hscan] at hloop
    rw [← account_eq]
    exact ⟨_, cache, begins hidle now listing, hloop.tail rfl⟩

/-- A refresh over files at rest has one outcome. -/
theorem Publishes.unique {now : ℚ} {listing : List String} {totals totals' : UsageSnapshot}
    (h : Publishes reader state now listing totals)
    (h' : Publishes reader state now listing totals') : totals = totals' := by
  obtain ⟨begun, cache, hbegun, hpublished⟩ := h
  obtain ⟨begun', cache', hbegun', hpublished'⟩ := h'
  obtain rfl := Option.some.inj (hbegun.symm.trans hbegun')
  exact congrArg (·.tracker.published) (final_unique hpublished hpublished' rfl rfl)

/-! ## Exactness -/

/-- `rglob` gives each present file once. -/
structure Lists (disk : String → Option File) (listing : List String) : Prop where
  nodup : listing.Nodup
  mem_iff : ∀ path, path ∈ listing ↔ (stat disk path).isSome = true

theorem lists_put_initial (path : String) (hpresent : file.present = true) :
    Lists (put initial path file).disk [path] := by
  refine ⟨List.pairwise_singleton _ _, fun other => ?_⟩
  rw [List.mem_singleton]
  by_cases hother : other = path
  · rw [hother, stat_eq_some_iff.mpr ⟨disk_put_self initial path file, hpresent⟩]
    exact iff_of_true rfl rfl
  · rw [stat, disk_put_of_ne initial file hother]
    exact iff_of_false hother Bool.false_ne_true

/-- The usages of the lines of the file under a path, when it is present. -/
def usagesOf (reader : UsageReader) (disk : String → Option File) (path : String) :
    List UsageEntry :=
  ((stat disk path).map fun file => file.lines.filterMap reader.entryOf).getD []

/-- A refresh over files at rest publishes the sums over the lines of the present files, and
one with an empty cache publishes the same. -/
def Exact (reader : UsageReader) (state : State) : Prop :=
  Idle state → ∀ now listing listing', Lists state.disk listing → Lists state.disk listing' →
    ∀ totals,
      (Publishes reader state now listing totals ↔
        totals = snapshotOf (reader.cutoffs now)
          (listing.flatMap (usagesOf reader state.disk))) ∧
      (Publishes reader { state with tracker := {} } now listing' totals ↔
        Publishes reader state now listing totals)

/-- Transcript lines are written, and reading them does not fail. -/
def Action.Orderly (reader : UsageReader) (action : Action) : Prop :=
  action ≠ .fail ∧ ∀ line ∈ action.lines, reader.TranscriptLine line

/-- Each line written can be counted. -/
def Action.Countable (reader : UsageReader) (action : Action) : Prop :=
  ∀ line ∈ action.lines, reader.Countable line

/-- No line on the disk makes a scan raise. -/
def Returns (reader : UsageReader) (state : State) : Prop :=
  ∀ path file, state.disk path = some file →
    ∀ line ∈ file.lines, reader.scanReading line = .ok (reader.entryOf line)

theorem returns_initial : Returns reader initial := by
  rintro path file ⟨⟩

theorem Returns.step {action : Action} (h : Returns reader before)
    (hlines : ∀ line ∈ action.lines, reader.scanReading line = .ok (reader.entryOf line))
    (htaken : step reader before action = some after) : Returns reader after := by
  intro path file hfile line hline
  rcases line_of_step htaken hfile hline with hwritten | ⟨other, old, hold, hbefore⟩
  · exact hlines line hwritten
  · exact h other old hold line hbefore

theorem scanFiles_of_returns (h : Returns reader state) (listing : List String) :
    scanFiles reader state.disk listing =
      .ok (listing.flatMap (usagesOf reader state.disk)) := by
  induction listing with
  | nil => rfl
  | cons path rest ih =>
      rw [List.flatMap_cons, usagesOf]
      cases hstat : stat state.disk path with
      | none =>
          rw [scanFiles, hstat]
          exact ih
      | some file =>
          obtain ⟨hfile, -⟩ := stat_eq_some_iff.mp hstat
          rw [scanFiles_next hstat (UsageReader.scanFile_of_returns (h path file hfile)), ih]
          rfl

/-- The order of the listing does not matter. -/
theorem snapshotOf_listing {listing listing' : List String} (cutoffs : Cutoffs)
    (h : Lists disk listing) (h' : Lists disk listing') :
    snapshotOf cutoffs (listing.flatMap (usagesOf reader disk)) =
      snapshotOf cutoffs (listing'.flatMap (usagesOf reader disk)) := by
  have hperm : listing.Perm listing' :=
    (List.perm_ext_iff_of_nodup h.nodup h'.nodup).mpr fun path =>
      (h.mem_iff path).trans (h'.mem_iff path).symm
  exact snapshotOf_perm cutoffs (hperm.flatMap_right _)

theorem Sound.exact (h : Sound reader state) (hreturns : Returns reader state) :
    Exact reader state := by
  intro hidle now listing listing' hlisting hlisting' totals
  have hpublished := publishes_iff h hidle now listing totals
  have hfresh := publishes_iff h.fresh hidle now listing' totals
  simp only [scanFiles_of_returns hreturns, Except.ok.injEq, exists_eq_left'] at hpublished hfresh
  rw [hpublished, hfresh, snapshotOf_listing (reader.cutoffs now) hlisting' hlisting]
  exact ⟨Iff.rfl, Iff.rfl⟩

/-- **The usage cache is exact.**  After any history of transcripts and refreshes in which
each line written can be counted, a refresh over files at rest publishes what the present
files say. -/
theorem exact_of_run {actions : List Action}
    (hrun : Run (step reader) (fun _ action => action.Orderly reader ∧ action.Countable reader)
      initial actions state) : Exact reader state := by
  have hsound : Sound reader state :=
    hrun.invariant sound_initial fun before action after h hallowed htaken =>
      h.step hallowed.1.1 htaken
  have hreturns : Returns reader state :=
    hrun.invariant returns_initial fun before action after h hallowed htaken =>
      h.step (fun line hline =>
        (UsageReader.scanReading_returns_iff (hallowed.1.2 line hline)).mpr
          (hallowed.2 line hline)) htaken
  exact hsound.exact hreturns

/-! ### A line appended between `stat` and scan, and a model that is a list -/

def pricedText : String :=
  "\x7b\"timestamp\": \"2026-01-01T00:00:00Z\", \"message\": " ++
    "\x7b\"model\": \"claude-opus-4-8\", \"usage\": \x7b\"input_tokens\": 1000000\x7d\x7d\x7d"

def pricedUsage : Json :=
  .obj [("input_tokens", .int 1000000)]

def pricedRecord : Json :=
  .obj
    [("timestamp", .str "2026-01-01T00:00:00Z"),
     ("message", .obj [("model", .str "claude-opus-4-8"), ("usage", pricedUsage)])]

def listModelText : String :=
  "\x7b\"message\": \x7b\"model\": [], \"usage\": \x7b\"input_tokens\": 1000000\x7d\x7d\x7d"

def listModelRecord : Json :=
  .obj [("message", .obj [("model", .arr []), ("usage", pricedUsage)])]

/-- A reader that knows these texts, the one timestamp, and the week it lies in. -/
def transcriptReader : UsageReader where
  json :=
    { dumps := fun _ => pricedText
      parse := fun text =>
        if text = pricedText then .ok pricedRecord
        else if text = listModelText then .ok listModelRecord
        else .error .jsonDecodeError }
  timestampOf text :=
    if text = "2026-01-01T00:00:00+00:00" then .ok 1767225600 else .error .valueError
  weekWindowStart _ := 1766642400

theorem strip_pricedText : strip pricedText = pricedText := by decide +kernel

theorem isBlank_pricedText : isBlank (encodeUtf8 pricedText) = false := by decide +kernel

theorem loads_pricedText :
    transcriptReader.json.loads (strip pricedText) = .ok pricedRecord := by
  rw [strip_pricedText, JsonModule.loads, isBlank_pricedText, if_neg Bool.false_ne_true]
  dsimp only [transcriptReader]
  rw [if_pos rfl]

theorem loads_listModelText :
    transcriptReader.json.loads (strip listModelText) = .ok listModelRecord := by
  have hstrip : strip listModelText = listModelText := by decide +kernel
  have hblank : isBlank (encodeUtf8 listModelText) = false := by decide +kernel
  have hother : listModelText ≠ pricedText := by decide +kernel
  rw [hstrip, JsonModule.loads, hblank, if_neg Bool.false_ne_true]
  dsimp only [transcriptReader]
  rw [if_neg hother, if_pos rfl]

/-- A million tokens at five dollars. -/
def pricedEntry : UsageEntry :=
  ⟨1767225600, .finite 5, .finite 1000000⟩

theorem scanReading_priced :
    transcriptReader.scanReading (.ok pricedText) = .ok (some pricedEntry) := by
  rw [UsageReader.scanReading_of_loads loads_pricedText]
  decide +kernel

theorem scanReading_listModel :
    transcriptReader.scanReading (.ok listModelText) = .error .typeError := by
  rw [UsageReader.scanReading_of_loads loads_listModelText]
  rfl

theorem isCount_pricedUsage {name : String} (hname : name ∈ tokenKeys) :
    IsCount ((pricedUsage.get? name).getD .null) := by
  simp only [tokenKeys, List.mem_cons, List.not_mem_nil, or_false] at hname
  rcases hname with rfl | rfl | rfl | rfl
  · exact .inr ⟨_, rfl⟩
  · exact .inl rfl
  · exact .inl rfl
  · exact .inl rfl

theorem transcriptLine_priced : transcriptReader.TranscriptLine (.ok pricedText) := by
  refine ⟨pricedText, pricedRecord, rfl, loads_pricedText, rfl, fun model usage husage => ?_⟩
  cases husage
  exact fun name hname => isCount_pricedUsage hname

theorem transcriptLine_listModel : transcriptReader.TranscriptLine (.ok listModelText) := by
  refine ⟨listModelText, listModelRecord, rfl, loads_listModelText, rfl,
    fun model usage husage => ?_⟩
  cases husage
  exact fun name hname => isCount_pricedUsage hname

theorem countable_priced : transcriptReader.Countable (.ok pricedText) := by
  rintro text record model usage ⟨⟩ hloads husage
  obtain rfl := Except.ok.inj (loads_pricedText.symm.trans hloads)
  cases husage
  refine ⟨⟨_, rfl⟩, fun stamp exception hstamp hexception => ?_⟩
  cases hstamp
  cases hexception

/-- The second line comes between the `stat` of the file and the scan of it, and the time of
the file stays the same. -/
def appendedDuringRefresh : List Action :=
  [.create "a.jsonl" [.ok pricedText] 115 1767225600,
   .begin 1767225601 ["a.jsonl"],
   .advance,
   .append "a.jsonl" [.ok pricedText] 230 1767225600,
   .advance, .advance, .advance, .advance, .advance]

theorem exact_of_run_appendedDuringRefresh :
    ∃ state, runActions (step transcriptReader) initial appendedDuringRefresh = some state ∧
      state.tracker.published = ⟨.finite 10, .finite 2000000, .finite 10, .finite 2000000⟩ ∧
      Exact transcriptReader state := by
  have hpublished : (runActions (step transcriptReader) initial appendedDuringRefresh).map
      (·.tracker.published) = some ⟨.finite 10, .finite 2000000, .finite 10, .finite 2000000⟩ := by
    decide +kernel
  obtain ⟨state, hstate, htotals⟩ := Option.map_eq_some_iff.mp hpublished
  have hlines : ∀ action ∈ appendedDuringRefresh,
      action ≠ .fail ∧ ∀ line ∈ action.lines, line = .ok pricedText := by
    simp [appendedDuringRefresh, Action.lines]
  refine ⟨state, hstate, htotals, exact_of_run (run_of_runActions hstate fun action hmem _ => ?_)⟩
  obtain ⟨hreads, hpriced⟩ := hlines action hmem
  refine ⟨⟨hreads, fun line hline => ?_⟩, fun line hline => ?_⟩
  · rw [hpriced line hline]
    exact transcriptLine_priced
  · rw [hpriced line hline]
    exact countable_priced

/-- The line with the list comes after one that has a price. -/
def listModelFile : File where
  lines := [.ok pricedText, .ok listModelText]
  size := 178
  mtime := 1767225600
  present := true

/-- The list cannot be looked up among the rates, and the exception ends the refresh. -/
theorem listModel_unpublished :
    ¬ ∀ (reader : UsageReader) (actions : List Action) (state : State),
      Run (step reader) (fun _ action => action.Orderly reader) initial actions state →
        Exact reader state := by
  intro hclaim
  let written := put initial "a.jsonl" listModelFile
  have horderly : Action.Orderly transcriptReader
      (.create "a.jsonl" listModelFile.lines listModelFile.size listModelFile.mtime) := by
    refine ⟨nofun, fun line hline => ?_⟩
    change line ∈ [.ok pricedText, .ok listModelText] at hline
    rw [List.mem_pair] at hline
    rcases hline with rfl | rfl
    · exact transcriptLine_priced
    · exact transcriptLine_listModel
  have htaken : step transcriptReader initial
      (.create "a.jsonl" listModelFile.lines listModelFile.size listModelFile.mtime) =
        some written := rfl
  have hexact := hclaim transcriptReader _ written (.snoc .nil horderly htaken)
  have hstat : stat written.disk "a.jsonl" = some listModelFile :=
    stat_eq_some_iff.mpr ⟨disk_put_self .., rfl⟩
  have hlists : Lists written.disk ["a.jsonl"] := lists_put_initial "a.jsonl" rfl
  have hidle : Idle written := fun refresh hrefresh => by cases hrefresh
  have hsound : Sound transcriptReader written := sound_initial.step horderly.1 htaken
  obtain ⟨entries, hentries, -⟩ := (publishes_iff hsound hidle 1767225601 ["a.jsonl"] _).mp
    ((hexact hidle 1767225601 _ _ hlists hlists _).1.mpr rfl)
  have hscan : transcriptReader.scanFile listModelFile.lines = .error .typeError := by
    change transcriptReader.scanFile [.ok pricedText, .ok listModelText] = _
    rw [UsageReader.scanFile_next scanReading_priced, UsageReader.scanFile, scanReading_listModel]
    rfl
  rw [scanFiles_raises hstat hscan] at hentries
  cases hentries

end Usage
end Frontend
end SiliconOffice
