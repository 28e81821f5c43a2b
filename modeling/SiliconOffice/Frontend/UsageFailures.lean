import SiliconOffice.Frontend.UsageCache

/-!
# Reads that fail and lines that are no usage

`_scan_file` returns what it has when a read fails, and `_refresh` remembers that under the
`stat` of the whole file: `likeFresh_of_run` says that a failure does no harm when the lines
that were left carry no usage, and `failure_remembered` is what happens otherwise.

A line of no use is passed over when it is not JSON or has no usage object.  Any other
exception leaves the scan and the refresh with it, and what is not a number may count.
`rest_counted_iff` says which lines leave the totals of all others alone.
-/

namespace SiliconOffice
namespace Frontend

open Library Python Common

/-! ## Lines with and without usage -/

/-- A number of a JSON text. -/
def isNumeric : Json → Bool
  | .int _ | .float _ => true
  | _ => false

namespace UsageReader

variable (reader : UsageReader)

/-- A message whose usage has numeric, `null` or no token counts and whose model, if there
is one, is a text. -/
def isUsageMessage (message : Json) : Bool :=
  match message.get? "usage" with
  | some (.obj members) =>
      (match message.get? "model" with
      | none | some (.str _) => true
      | some _ => false) &&
      tokenKeys.all fun name =>
        match members.lookup name with
        | none | some .null => true
        | some value => isNumeric value
  | _ => false

/-- The line is a JSON object with such a message. -/
def carriesUsage (line : Except PyErr String) : Bool :=
  match line >>= fun text => reader.json.loads (strip text) with
  | .ok record => ((record.get? "message").map isUsageMessage).getD false
  | .error _ => false

/-- The line is blank, not JSON, or an object without a usage object in a message object. -/
def WithoutUsage (line : Except PyErr String) : Prop :=
  ∃ text, line = .ok text ∧
    ((strip text).isEmpty = true ∨
      (∃ exception, reader.json.loads (strip text) = .error exception ∧
        exception.isValueError = true) ∨
      ∃ record, reader.json.loads (strip text) = .ok record ∧ usageOf record = .ok none)

/-- The line has a usage object that comes to no tokens and no cost. -/
def AddsNothing (line : Except PyErr String) : Prop :=
  ∃ text record model usage timestamp,
    line = .ok text ∧ (strip text).isEmpty = false ∧
      reader.json.loads (strip text) = .ok record ∧
      usageOf record = .ok (some (model, usage)) ∧
      reader.entryFor record model usage = .ok ⟨timestamp, 0, 0⟩

/-- The line leaves the totals alone. -/
def PassedOver (line : Except PyErr String) : Prop :=
  reader.WithoutUsage line ∨ reader.AddsNothing line

variable {reader} {line : Except PyErr String}

theorem scanReading_eq_none_iff :
    reader.scanReading line = .ok none ↔ reader.WithoutUsage line := by
  unfold WithoutUsage
  cases line with
  | error exception => exact iff_of_false nofun (by rintro ⟨text, h, -⟩; cases h)
  | ok text =>
      simp only [Except.ok.injEq, exists_eq_left']
      unfold scanReading
      rw [ok_bind]
      unfold scanLine
      dsimp only
      by_cases hblank : (strip text).isEmpty = true
      · rw [if_pos hblank]
        exact iff_of_true rfl (.inl hblank)
      · rw [if_neg hblank]
        cases hloads : reader.json.loads (strip text) with
        | error exception =>
            by_cases hvalue : exception.isValueError = true
            · simp [hvalue]
            · simp [hblank, hvalue]
        | ok record =>
            cases hfound : usageOf record with
            | error exception => simp [hblank, hfound, error_bind]
            | ok found =>
                cases found with
                | none => simp [hfound, ok_bind]
                | some pair =>
                    obtain ⟨model, usage⟩ := pair
                    cases hentry : reader.entryFor record model usage <;>
                      simp [hblank, hfound, hentry, ok_bind, error_bind]

theorem scanReading_eq_some_iff {entry : UsageEntry} :
    reader.scanReading line = .ok (some entry) ↔
      ∃ text record model usage,
        line = .ok text ∧ (strip text).isEmpty = false ∧
          reader.json.loads (strip text) = .ok record ∧
          usageOf record = .ok (some (model, usage)) ∧
          reader.entryFor record model usage = .ok entry := by
  constructor
  · intro h
    obtain ⟨text, rfl, hscan⟩ := exists_of_bind_ok h
    unfold scanLine at hscan
    dsimp only at hscan
    split at hscan
    · cases hscan
    · rename_i hblank
      split at hscan
      · split at hscan
        · cases hscan
        · cases hscan
      · rename_i record hloads
        obtain ⟨found, hfound, hnext⟩ := exists_of_bind_ok hscan
        cases found with
        | none => cases hnext
        | some pair =>
            obtain ⟨model, usage⟩ := pair
            obtain ⟨other, hentry, hsame⟩ := exists_of_bind_ok hnext
            cases hsame
            exact ⟨text, record, model, usage, rfl, eq_false_of_ne_true hblank, hloads, hfound,
              hentry⟩
  · rintro ⟨text, record, model, usage, rfl, -, hloads, hfound, hentry⟩
    rw [scanReading_of_loads hloads, hfound, ok_bind]
    dsimp only
    rw [hentry]
    rfl

theorem addsNothing_iff :
    reader.AddsNothing line ↔
      ∃ timestamp, reader.scanReading line = .ok (some ⟨timestamp, 0, 0⟩) := by
  simp only [scanReading_eq_some_iff]
  constructor
  · rintro ⟨text, record, model, usage, timestamp, hline⟩
    exact ⟨timestamp, text, record, model, usage, hline⟩
  · rintro ⟨timestamp, text, record, model, usage, hline⟩
    exact ⟨text, record, model, usage, timestamp, hline⟩

end UsageReader

namespace Usage

variable {reader : UsageReader} {state before after : State}

/-! ## Reads that fail -/

/-- A read that fails now is done with its file as far as it matters: the file is gone, or
it is not the size it had at the `stat`, or the lines that are left carry no usage. -/
def Spent (reader : UsageReader) (state : State) : Prop :=
  ∀ refresh scanning file, state.activity = .refreshing refresh →
    refresh.scanning = some scanning → stat state.disk scanning.path = some file →
    file.size = scanning.size →
    ∀ line ∈ file.lines.drop ((scanning.reading.map Reading.position).getD 0),
      reader.WithoutUsage line

/-- A refresh over files at rest publishes what one with an empty cache does. -/
def LikeFresh (reader : UsageReader) (state : State) : Prop :=
  Idle state → ∀ now listing listing', Lists state.disk listing → Lists state.disk listing' →
    ∀ totals, Publishes reader state now listing totals ↔
      Publishes reader { state with tracker := {} } now listing' totals

/-- The lines that are written are usage records, or objects without one, that can be
counted. -/
def Action.WellFormed (reader : UsageReader) (action : Action) : Prop :=
  ∀ line ∈ action.lines, reader.TranscriptLine line ∧ reader.Countable line

theorem scanFile_of_withoutUsage {lines : List (Except PyErr String)}
    (h : ∀ line ∈ lines, reader.WithoutUsage line) : reader.scanFile lines = .ok [] := by
  induction lines with
  | nil => rfl
  | cons line rest ih =>
      rw [UsageReader.scanFile_next (UsageReader.scanReading_eq_none_iff.mpr
        (h line List.mem_cons_self)),
        ih fun other hother => h other (List.mem_cons_of_mem _ hother)]
      rfl

/-- A tracker that was just made has nothing wrong in its cache. -/
theorem sound_of_empty (htracker : state.tracker = {}) (hidle : Idle state) :
    Sound reader state where
  cache path usage hcached := by
    rw [htracker] at hcached
    cases hcached
  refresh refresh hrefresh := absurd hrefresh (hidle refresh)

/-- A failure that comes late enough leaves the entries of the whole file. -/
theorem Sound.fail (h : Sound reader before) (hspent : Spent reader before)
    (htaken : Usage.step reader before .fail = some after) : Sound reader after := by
  rw [Usage.step] at htaken
  split at htaken
  · rename_i refresh hactivity
    obtain ⟨scanning, hscanning, rfl⟩ := Option.map_eq_some_iff.mp htaken
    have hrefresh := h.refresh refresh hactivity
    obtain ⟨file, hfile, hsize, hreading⟩ := hrefresh.scanning scanning hscanning
    refine ⟨h.cache, ?_⟩
    rintro _ ⟨⟩
    refine hrefresh.count ⟨file, hfile, hsize, fun hsame hpresent => ?_⟩
    have hrest := scanFile_of_withoutUsage (hspent refresh scanning file hactivity hscanning
      (stat_eq_some_iff.mpr ⟨hfile, hpresent⟩) hsame.symm)
    cases hopen : scanning.reading with
    | none =>
        rw [hopen] at hrest
        exact hrest
    | some reading =>
        rw [hopen] at hrest
        obtain ⟨hposition, hscanned⟩ := hreading reading hopen
        have hwhole := hscanned (file.lines.drop reading.position)
        rw [List.take_append_drop] at hwhole
        rw [hwhole]
        show (reader.scanFile (file.lines.drop reading.position)).map _ = _
        rw [show reader.scanFile (file.lines.drop reading.position) = .ok [] from hrest]
        exact congrArg Except.ok (List.append_nil _)
  · cases htaken

/-- **When a failed read is not remembered.**  After any history in which reads fail only
when the rest of their file carries no usage, a refresh over files at rest publishes what a
fresh tracker does. -/
theorem likeFresh_of_run {actions : List Action}
    (hrun : Run (step reader) (fun before action => action.WellFormed reader ∧
      (action = .fail → Spent reader before)) initial actions state) :
    LikeFresh reader state := by
  have hsound : Sound reader state := by
    refine hrun.invariant sound_initial fun before action after h hallowed htaken => ?_
    by_cases hfail : action = .fail
    · subst hfail
      exact h.fail (hallowed.2 rfl) htaken
    · exact h.step hfail htaken
  have hreturns : Returns reader state :=
    hrun.invariant returns_initial fun before action after h hallowed htaken =>
      h.step (fun line hline => UsageReader.scanReading_returns (hallowed.1 line hline).1
        (hallowed.1 line hline).2) htaken
  intro hidle now listing listing' hlisting hlisting' totals
  exact (hsound.exact hreturns hidle now listing listing' hlisting hlisting' totals).2.symm

/-! ### A file that could not be opened -/

def pricedFile : File where
  lines := [.ok pricedText]
  size := 115
  mtime := 1767225600
  present := true

/-- The file is there, and the refresh that begins fails to open it. -/
def unopened : List Action :=
  [.create "a.jsonl" pricedFile.lines pricedFile.size pricedFile.mtime,
   .begin 1767225601 ["a.jsonl"], .advance, .fail, .advance]

/-- The refresh has got so much out of the file. -/
def scannedPriced (entries : List UsageEntry) : Refreshing :=
  Refreshing.scanned { cutoffs := transcriptReader.cutoffs 1767225601, listing := [] }
    ⟨"a.jsonl", 1767225600, 115, none⟩ entries

/-- The file, and the tracker after that refresh. -/
def afterFailure : State where
  disk := (put initial "a.jsonl" pricedFile).disk
  tracker := ⟨(scannedPriced []).freshCache, (scannedPriced []).totals⟩
  activity := .waiting

theorem wellFormed_priced {action : Action} (h : ∀ line ∈ action.lines, line = .ok pricedText) :
    action.WellFormed transcriptReader := by
  intro line hline
  rw [h line hline]
  exact ⟨transcriptLine_priced, countable_priced⟩

theorem wellFormed_silent {action : Action} (h : action.lines = []) :
    action.WellFormed reader := by
  intro line hline
  rw [h] at hline
  exact absurd hline List.not_mem_nil

theorem runActions_unopened :
    runActions (step transcriptReader) initial unopened = some afterFailure := rfl

/-- The later refresh takes the file for empty, from the cache. -/
theorem publishes_afterFailure :
    Publishes transcriptReader afterFailure 1767225602 ["a.jsonl"] {} :=
  ⟨_, _, rfl, .head rfl (.single rfl)⟩

/-- What could not be read once is never read again. -/
theorem failure_remembered :
    ¬ ∀ (reader : UsageReader) (actions : List Action) (state : State),
      Run (step reader) (fun _ action => action.WellFormed reader) initial actions state →
        LikeFresh reader state := by
  intro hclaim
  have hlike := hclaim transcriptReader unopened afterFailure
    (run_of_runActions runActions_unopened fun action haction _ =>
      wellFormed_priced (by
        simp only [unopened, List.mem_cons, List.not_mem_nil, or_false] at haction
        rcases haction with rfl | rfl | rfl | rfl | rfl <;> simp [Action.lines, pricedFile]))
  have hidle : Idle afterFailure := fun refresh hrefresh => by cases hrefresh
  have hlists : Lists afterFailure.disk ["a.jsonl"] := lists_put_initial "a.jsonl" rfl
  have hfresh := (hlike hidle 1767225602 _ _ hlists hlists {}).mp publishes_afterFailure
  have hsound : Sound transcriptReader { afterFailure with tracker := {} } :=
    sound_of_empty rfl hidle
  obtain ⟨entries, hentries, htotals⟩ := (publishes_iff hsound hidle _ _ _).mp hfresh
  have hscan : scanFiles transcriptReader afterFailure.disk ["a.jsonl"] = .ok [pricedEntry] := by
    have hfile : transcriptReader.scanFile pricedFile.lines = .ok [pricedEntry] :=
      UsageReader.scanFile_next scanReading_priced []
    have hstat : stat afterFailure.disk "a.jsonl" = some pricedFile :=
      stat_eq_some_iff.mpr ⟨disk_put_self initial "a.jsonl" pricedFile, rfl⟩
    rw [scanFiles_next hstat hfile]
    rfl
  obtain rfl := Except.ok.inj (hscan.symm.trans hentries)
  exact absurd htotals (by decide +kernel)

/-! ### A file that could not be read to its end -/

/-- The refresh that has read so much of the file. -/
def readingPriced (position : ℕ) (entries : List UsageEntry) : State :=
  (put initial "a.jsonl" pricedFile).during
    (Refreshing.reading { cutoffs := transcriptReader.cutoffs 1767225601, listing := [] }
      ⟨"a.jsonl", 1767225600, 115, none⟩ position entries)

theorem runActions_opened :
    runActions (step transcriptReader) initial
      [.create "a.jsonl" pricedFile.lines pricedFile.size pricedFile.mtime,
       .begin 1767225601 ["a.jsonl"], .advance, .advance] = some (readingPriced 0 []) := rfl

theorem advance_readingPriced :
    step transcriptReader (readingPriced 0 []) .advance =
      some (readingPriced 1 [pricedEntry]) := by
  have hread := @advance_reading ⟨"a.jsonl", 1767225600, 115, none⟩ pricedFile transcriptReader
    (put initial "a.jsonl" pricedFile)
    { cutoffs := transcriptReader.cutoffs 1767225601, listing := [] } 0 []
    (disk_put_self initial "a.jsonl" pricedFile)
  rw [show pricedFile.lines[0]? = some (.ok pricedText) from rfl] at hread
  dsimp only at hread
  rw [scanReading_priced] at hread
  exact hread

/-- Nothing is left of the file but its end. -/
theorem spent_readingPriced : Spent transcriptReader (readingPriced 1 [pricedEntry]) := by
  intro refresh scanning file hactivity hscanning hstat _ line hline
  cases hactivity
  cases hscanning
  cases (stat_eq_some_iff.mp hstat).1
  exact absurd hline List.not_mem_nil

/-- The refresh has counted what it read of the file. -/
def countedPriced : State :=
  (put initial "a.jsonl" pricedFile).during (scannedPriced [pricedEntry])

theorem fail_readingPriced :
    step transcriptReader (readingPriced 1 [pricedEntry]) .fail = some countedPriced := rfl

/-- The tracker after that refresh. -/
def publishedPriced : State where
  disk := (put initial "a.jsonl" pricedFile).disk
  tracker := ⟨(scannedPriced [pricedEntry]).freshCache, (scannedPriced [pricedEntry]).totals⟩
  activity := .waiting

theorem advance_countedPriced :
    step transcriptReader countedPriced .advance = some publishedPriced := rfl

theorem likeFresh_afterLateFailure :
    ∃ state, state.tracker.published =
        ⟨.finite 5, .finite 1000000, .finite 5, .finite 1000000⟩ ∧
      LikeFresh transcriptReader state := by
  have hopened : Run (step transcriptReader) (fun before action =>
      action.WellFormed transcriptReader ∧ (action = .fail → Spent transcriptReader before))
        initial _ (readingPriced 0 []) :=
    run_of_runActions runActions_opened fun action haction _ => by
      simp only [List.mem_cons, List.not_mem_nil, or_false] at haction
      refine ⟨wellFormed_priced ?_, ?_⟩
      · rcases haction with rfl | rfl | rfl | rfl <;> simp [Action.lines, pricedFile]
      · rcases haction with rfl | rfl | rfl | rfl <;> exact fun h => by cases h
  have hread := hopened.snoc ⟨wellFormed_silent rfl, fun h => by cases h⟩ advance_readingPriced
  have hfailed := hread.snoc ⟨wellFormed_silent rfl, fun _ => spent_readingPriced⟩
    fail_readingPriced
  have hended := hfailed.snoc ⟨wellFormed_silent rfl, fun h => by cases h⟩ advance_countedPriced
  exact ⟨publishedPriced, by decide +kernel, likeFresh_of_run hended⟩

/-! ## Lines that are no usage -/

/-- The same files without the lines that carry no usage, and a fresh tracker. -/
def pruned (reader : UsageReader) (state : State) : State where
  disk path := (state.disk path).map fun file =>
    { file with lines := file.lines.filter reader.carriesUsage }
  tracker := {}
  activity := .waiting

/-- A refresh publishes the totals of the lines that carry usage. -/
def RestCounted (reader : UsageReader) (state : State) : Prop :=
  ∀ now listing totals, Publishes reader state now listing totals ↔
    Publishes reader (pruned reader state) now listing totals

/-- The entry changes a total. -/
def counts (entry : UsageEntry) : Bool :=
  decide (entry.cost ≠ 0 ∨ entry.tokens ≠ 0)

theorem counts_eq_false_iff {entry : UsageEntry} :
    counts entry = false ↔ entry.cost = 0 ∧ entry.tokens = 0 := by
  rw [counts, decide_eq_false_iff_not, not_or, not_not, not_not]

/-- Two scans that add the same to the totals, or raise the same. -/
inductive SameTotals : Except PyErr (List UsageEntry) → Except PyErr (List UsageEntry) → Prop
  | error (exception : PyErr) : SameTotals (.error exception) (.error exception)
  | ok {entries others : List UsageEntry} (h : entries.filter counts = others.filter counts) :
      SameTotals (.ok entries) (.ok others)

theorem sumSince_filter_counts {cutoff : ℚ} {amount : UsageEntry → Number}
    (h : ∀ entry, counts entry = false → amount entry = 0) (entries : List UsageEntry) :
    sumSince cutoff amount (entries.filter counts) = sumSince cutoff amount entries := by
  unfold sumSince
  induction entries with
  | nil => rfl
  | cons entry rest ih =>
      cases hcounts : counts entry with
      | true =>
          rw [List.filter_cons_of_pos hcounts]
          by_cases hsince : cutoff ≤ entry.timestamp
          · simpa [hsince] using congrArg (amount entry + ·) ih
          · simpa [hsince] using ih
      | false =>
          rw [List.filter_cons_of_neg (ne_true_of_eq_false hcounts), ih]
          by_cases hsince : cutoff ≤ entry.timestamp
          · simp [hsince, h entry hcounts]
          · simp [hsince]

theorem snapshotOf_filter_counts (cutoffs : Cutoffs) (entries : List UsageEntry) :
    snapshotOf cutoffs (entries.filter counts) = snapshotOf cutoffs entries := by
  have hcost : ∀ entry, counts entry = false → entry.cost = 0 := fun entry hcounts =>
    (counts_eq_false_iff.mp hcounts).1
  have htokens : ∀ entry, counts entry = false → entry.tokens = 0 := fun entry hcounts =>
    (counts_eq_false_iff.mp hcounts).2
  unfold snapshotOf
  rw [sumSince_filter_counts hcost, sumSince_filter_counts htokens, sumSince_filter_counts hcost,
    sumSince_filter_counts htokens]

theorem SameTotals.snapshotOf_iff {one other : Except PyErr (List UsageEntry)}
    (h : SameTotals one other) (cutoffs : Cutoffs) (totals : UsageSnapshot) :
    (∃ entries, one = .ok entries ∧ totals = snapshotOf cutoffs entries) ↔
      ∃ entries, other = .ok entries ∧ totals = snapshotOf cutoffs entries := by
  cases h with
  | error exception => rfl
  | @ok entries others hfilter =>
      simp only [Except.ok.injEq, exists_eq_left']
      rw [← snapshotOf_filter_counts cutoffs entries, hfilter, snapshotOf_filter_counts]

theorem SameTotals.prepend {one other : Except PyErr (List UsageEntry)} (h : SameTotals one other)
    {mine yours : List UsageEntry} (hsame : mine.filter counts = yours.filter counts) :
    SameTotals (one.map (mine ++ ·)) (other.map (yours ++ ·)) := by
  cases h with
  | error exception => exact .error exception
  | ok hfilter =>
      refine .ok ?_
      rw [List.filter_append, List.filter_append, hsame, hfilter]

theorem scanReading_of_passedOver {line : Except PyErr String} (h : reader.PassedOver line) :
    ∃ yielded, reader.scanReading line = .ok yielded ∧ yielded.toList.filter counts = [] := by
  rcases h with hwithout | hnothing
  · exact ⟨none, UsageReader.scanReading_eq_none_iff.mpr hwithout, rfl⟩
  · obtain ⟨timestamp, hline⟩ := UsageReader.addsNothing_iff.mp hnothing
    exact ⟨_, hline, rfl⟩

/-- Lines that are passed over can be left out of a file. -/
theorem sameTotals_scanFile {lines : List (Except PyErr String)}
    (h : ∀ line ∈ lines, reader.carriesUsage line = true ∨ reader.PassedOver line) :
    SameTotals (reader.scanFile lines) (reader.scanFile (lines.filter reader.carriesUsage)) := by
  induction lines with
  | nil => exact .ok rfl
  | cons line rest ih =>
      have hrest := ih fun other hother => h other (List.mem_cons_of_mem _ hother)
      cases hcarries : reader.carriesUsage line with
      | true =>
          rw [List.filter_cons_of_pos hcarries]
          cases hline : reader.scanReading line with
          | ok yielded =>
              rw [UsageReader.scanFile_next hline, UsageReader.scanFile_next hline]
              exact hrest.prepend rfl
          | error exception =>
              rw [UsageReader.scanFile, UsageReader.scanFile, hline]
              dsimp only
              split
              · exact .ok rfl
              · exact .error exception
      | false =>
          have hpassed := (h line List.mem_cons_self).resolve_left (ne_true_of_eq_false hcarries)
          obtain ⟨yielded, hline, hnothing⟩ := scanReading_of_passedOver hpassed
          rw [List.filter_cons_of_neg (ne_true_of_eq_false hcarries),
            UsageReader.scanFile_next hline]
          generalize reader.scanFile rest = one at hrest
          generalize reader.scanFile (rest.filter reader.carriesUsage) = other at hrest
          cases hrest with
          | error exception => exact .error exception
          | ok hfilter =>
              refine .ok ?_
              rw [List.filter_append, hnothing, List.nil_append, hfilter]

theorem stat_pruned (path : String) :
    stat (pruned reader state).disk path =
      (stat state.disk path).map fun file =>
        { file with lines := file.lines.filter reader.carriesUsage } := by
  unfold stat pruned
  dsimp only
  cases state.disk path with
  | none => rfl
  | some file => cases hpresent : file.present <;> simp [Option.filter, hpresent]

/-- And so of all the files. -/
theorem sameTotals_scanFiles
    (h : ∀ path file, state.disk path = some file →
      ∀ line ∈ file.lines, reader.carriesUsage line = true ∨ reader.PassedOver line)
    (listing : List String) :
    SameTotals (scanFiles reader state.disk listing)
      (scanFiles reader (pruned reader state).disk listing) := by
  induction listing with
  | nil => exact .ok rfl
  | cons path rest ih =>
      have hpruned := @stat_pruned reader state path
      cases hstat : stat state.disk path with
      | none =>
          rw [hstat] at hpruned
          rw [scanFiles, scanFiles, hstat, hpruned]
          exact ih
      | some file =>
          rw [hstat] at hpruned
          have hfile := sameTotals_scanFile (h path file (stat_eq_some_iff.mp hstat).1)
          generalize hscan : reader.scanFile file.lines = one at hfile
          generalize hscan' : reader.scanFile (file.lines.filter reader.carriesUsage) = other
            at hfile
          cases hfile with
          | error exception =>
              rw [scanFiles_raises hstat hscan, scanFiles_raises hpruned hscan']
              exact .error exception
          | ok hfilter =>
              rw [scanFiles_next hstat hscan, scanFiles_next hpruned hscan']
              exact ih.prepend hfilter

/-- One transcript of these lines, and a tracker that was just made. -/
def written (lines : List (Except PyErr String)) : State :=
  put initial "a.jsonl" ⟨lines, 0, 0, true⟩

theorem run_written (reader : UsageReader) (lines : List (Except PyErr String)) :
    Run (step reader) (fun _ action => action ≠ .fail) initial [.create "a.jsonl" lines 0 0]
      (written lines) :=
  .snoc .nil (fun h => by cases h) rfl

theorem idle_written (lines : List (Except PyErr String)) : Idle (written lines) :=
  fun refresh hrefresh => by cases hrefresh

theorem of_disk_written {lines : List (Except PyErr String)} {path : String} {file : File}
    (h : (written lines).disk path = some file) : file.lines = lines := by
  rcases eq_or_of_disk_put h with rfl | hold
  · rfl
  · cases hold

theorem pruned_written (reader : UsageReader) (lines : List (Except PyErr String)) :
    pruned reader (written lines) = written (lines.filter reader.carriesUsage) := by
  have hdisk : (pruned reader (written lines)).disk =
      (written (lines.filter reader.carriesUsage)).disk := by
    funext path
    show ((written lines).disk path).map _ = _
    unfold written
    by_cases hpath : path = "a.jsonl"
    · subst hpath
      rw [disk_put_self, disk_put_self, Option.map_some]
    · rw [disk_put_of_ne _ _ hpath, disk_put_of_ne _ _ hpath]
      rfl
  exact congrArg (fun disk => State.mk disk {} .waiting) hdisk

theorem publishes_written_iff {lines : List (Except PyErr String)} {now : ℚ}
    {totals : UsageSnapshot} :
    Publishes reader (written lines) now ["a.jsonl"] totals ↔
      ∃ entries, reader.scanFile lines = .ok entries ∧
        totals = snapshotOf (reader.cutoffs now) entries := by
  have hscan : scanFiles reader (written lines).disk ["a.jsonl"] = reader.scanFile lines := by
    have hstat : stat (written lines).disk "a.jsonl" = some ⟨lines, 0, 0, true⟩ :=
      stat_eq_some_iff.mpr ⟨disk_put_self .., rfl⟩
    cases hlines : reader.scanFile lines with
    | error exception => exact scanFiles_raises hstat hlines []
    | ok entries =>
        rw [scanFiles_next hstat hlines]
        exact congrArg Except.ok (List.append_nil entries)
  rw [publishes_iff (sound_of_empty rfl (idle_written lines)) (idle_written lines), hscan]

/-- What the lines with usage give is what the whole file gives. -/
theorem RestCounted.scan {lines : List (Except PyErr String)} {kept : List UsageEntry}
    (h : RestCounted reader (written lines))
    (hkept : reader.scanFile (lines.filter reader.carriesUsage) = .ok kept) (now : ℚ) :
    ∃ entries, reader.scanFile lines = .ok entries ∧
      snapshotOf (reader.cutoffs now) kept = snapshotOf (reader.cutoffs now) entries := by
  have hpublished := h now ["a.jsonl"] (snapshotOf (reader.cutoffs now) kept)
  rw [pruned_written, publishes_written_iff, publishes_written_iff] at hpublished
  exact hpublished.mpr ⟨kept, hkept, rfl⟩

/-- An entry counts at its own time. -/
theorem counts_of_snapshotOf {entry : UsageEntry}
    (h : snapshotOf (reader.cutoffs entry.timestamp) [entry] = {}) : counts entry = false := by
  have hsince : (reader.cutoffs entry.timestamp).session ≤ entry.timestamp :=
    sub_le_self _ (by decide +kernel)
  have hcost := congrArg UsageSnapshot.sessionCost h
  have htokens := congrArg UsageSnapshot.sessionTokens h
  simp only [snapshotOf, sumSince, List.filter_cons, hsince, decide_true, if_true, List.filter_nil,
    List.map_cons, List.map_nil, List.sum_singleton] at hcost htokens
  exact counts_eq_false_iff.mpr ⟨hcost, htokens⟩

/-- A line that adds to the totals, or that keeps the next one from adding to them, is not
passed over. -/
theorem passedOver_of_restCounted {line counted : Except PyErr String} {entry : UsageEntry}
    (hcarries : reader.carriesUsage counted = true)
    (hcounted : reader.scanReading counted = .ok (some entry)) (hentry : counts entry = true)
    (hbad : reader.carriesUsage line = false)
    (halone : RestCounted reader (written [line]))
    (hbefore : RestCounted reader (written [line, counted])) : reader.PassedOver line := by
  cases hline : reader.scanReading line with
  | ok yielded =>
      cases yielded with
      | none => exact .inl (UsageReader.scanReading_eq_none_iff.mp hline)
      | some other =>
          have hkept : reader.scanFile ([line].filter reader.carriesUsage) = .ok [] := by
            rw [List.filter_cons_of_neg (ne_true_of_eq_false hbad)]
            rfl
          obtain ⟨entries, hentries, htotals⟩ := halone.scan hkept other.timestamp
          rw [UsageReader.scanFile_next hline] at hentries
          cases hentries
          have hnothing : counts other = false := counts_of_snapshotOf htotals.symm
          refine .inr (UsageReader.addsNothing_iff.mpr ⟨other.timestamp, ?_⟩)
          obtain ⟨timestamp, cost, tokens⟩ := other
          obtain ⟨rfl, rfl⟩ := counts_eq_false_iff.mp hnothing
          exact hline
  | error exception =>
      have hkept : reader.scanFile ([line, counted].filter reader.carriesUsage) = .ok [entry] := by
        rw [List.filter_cons_of_neg (ne_true_of_eq_false hbad), List.filter_cons_of_pos hcarries,
          List.filter_nil, UsageReader.scanFile_next hcounted]
        rfl
      obtain ⟨entries, hentries, htotals⟩ := hbefore.scan hkept entry.timestamp
      rw [UsageReader.scanFile, hline] at hentries
      dsimp only at hentries
      split at hentries
      · cases hentries
        exact absurd (counts_of_snapshotOf htotals) (ne_false_of_eq_true hentry)
      · cases hentries

/-- **Which bad lines hide nothing.**  Over every history without failed reads, files whose
other lines are of this kind give the totals of their lines with usage, exactly when each
line of the kind is passed over. -/
theorem restCounted_iff (reader : UsageReader)
    (hreads : ∃ line entry, reader.carriesUsage line = true ∧
      reader.scanReading line = .ok (some entry) ∧ counts entry = true)
    (kind : Except PyErr String → Prop) :
    (∀ actions state, Run (step reader) (fun _ action => action ≠ .fail) initial actions state →
        Idle state →
        (∀ path file, state.disk path = some file →
          ∀ line ∈ file.lines, reader.carriesUsage line = true ∨ kind line) →
        RestCounted reader state) ↔
      ∀ line, kind line → reader.carriesUsage line = false → reader.PassedOver line := by
  constructor
  · intro h line hkind hbad
    obtain ⟨counted, entry, hcarries, hcounted, hentry⟩ := hreads
    refine passedOver_of_restCounted hcarries hcounted hentry hbad ?_ ?_
    · refine h _ _ (run_written reader [line]) (idle_written _) ?_
      intro path file hfile other hother
      rw [of_disk_written hfile, List.mem_singleton] at hother
      exact .inr (hother ▸ hkind)
    · refine h _ _ (run_written reader [line, counted]) (idle_written _)
        fun path file hfile other hother => ?_
      rw [of_disk_written hfile, List.mem_pair] at hother
      rcases hother with rfl | rfl
      · exact .inr hkind
      · exact .inl hcarries
  · intro h actions state hrun hidle hlines now listing totals
    have hsound : Sound reader state :=
      hrun.invariant sound_initial fun before action after hbefore hreads htaken =>
        hbefore.step hreads htaken
    have hfresh : Idle (pruned reader state) := fun refresh hrefresh => by cases hrefresh
    have hpassed : ∀ path file, state.disk path = some file →
        ∀ line ∈ file.lines, reader.carriesUsage line = true ∨ reader.PassedOver line := by
      intro path file hfile line hline
      cases hcarries : reader.carriesUsage line with
      | true => exact .inl rfl
      | false =>
          have hkind := (hlines path file hfile line hline).resolve_left
            (ne_true_of_eq_false hcarries)
          exact .inr (h line hkind hcarries)
    rw [publishes_iff hsound hidle, publishes_iff (sound_of_empty rfl hfresh) hfresh]
    exact (sameTotals_scanFiles hpassed listing).snapshotOf_iff (reader.cutoffs now) totals

/-! ### A blank line, and one that is a list -/

/-- For every reader that loads the text as the record. -/
theorem carriesUsage_of_loads
    (hloads : reader.json.loads (strip pricedText) = .ok pricedRecord) :
    reader.carriesUsage (.ok pricedText) = true := by
  rw [UsageReader.carriesUsage, ok_bind, hloads]
  rfl

theorem restCounted_beside_blank :
    RestCounted transcriptReader (written [.ok "", .ok pricedText]) := by
  have hreads : ∃ line entry, transcriptReader.carriesUsage line = true ∧
      transcriptReader.scanReading line = .ok (some entry) ∧ counts entry = true :=
    ⟨_, _, carriesUsage_of_loads loads_pricedText, scanReading_priced, by decide +kernel⟩
  refine (restCounted_iff transcriptReader hreads (· = .ok "")).mpr ?_ _ _ (run_written _ _)
    (idle_written _) fun path file hfile line hline => ?_
  · rintro line rfl -
    exact .inl ⟨"", rfl, .inl (by decide +kernel)⟩
  · rw [of_disk_written hfile, List.mem_pair] at hline
    rcases hline with rfl | rfl
    · exact .inr rfl
    · exact .inl (carriesUsage_of_loads loads_pricedText)

/-- The same reader, which also knows the empty list. -/
def listReader : UsageReader :=
  { transcriptReader with
    json :=
      { transcriptReader.json with
        parse := fun text =>
          if text = "[]" then .ok (.arr []) else transcriptReader.json.parse text } }

theorem loads_listReader :
    listReader.json.loads (strip pricedText) = .ok pricedRecord := by
  have hother : pricedText ≠ "[]" := by decide +kernel
  rw [strip_pricedText, JsonModule.loads, isBlank_pricedText, if_neg Bool.false_ne_true]
  dsimp only [listReader, transcriptReader]
  rw [if_neg hother, if_pos rfl]

theorem scanReading_list : listReader.scanReading (.ok "[]") = .error .attributeError := by
  decide +kernel

/-- A list has no `get`, and the exception ends the refresh. -/
theorem list_hides_rest :
    ¬ ∀ (reader : UsageReader) (actions : List Action) (state : State),
      Run (step reader) (fun _ action => action ≠ .fail) initial actions state → Idle state →
        RestCounted reader state := by
  intro hclaim
  have hrest := hclaim listReader _ _ (run_written _ [.ok pricedText, .ok "[]"]) (idle_written _)
  have hpriced : listReader.scanReading (.ok pricedText) = .ok (some pricedEntry) := by
    rw [UsageReader.scanReading_of_loads loads_listReader]
    decide +kernel
  have hlist : listReader.carriesUsage (.ok "[]") = false := by decide +kernel
  have hkept : listReader.scanFile ([.ok pricedText, .ok "[]"].filter listReader.carriesUsage) =
      .ok [pricedEntry] := by
    rw [List.filter_cons_of_pos (carriesUsage_of_loads loads_listReader),
      List.filter_cons_of_neg (ne_true_of_eq_false hlist), List.filter_nil]
    exact UsageReader.scanFile_next hpriced []
  obtain ⟨entries, hentries, -⟩ := hrest.scan hkept 1767225601
  rw [UsageReader.scanFile_next hpriced, UsageReader.scanFile, scanReading_list] at hentries
  cases hentries

end Usage
end Frontend
end SiliconOffice
