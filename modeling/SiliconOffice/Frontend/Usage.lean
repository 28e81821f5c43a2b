import Mathlib.Data.List.Induction
import SiliconOffice.Common.Ipc
import SiliconOffice.Common.Pricing
import SiliconOffice.Python.Text

/-!
# Usage entries of a transcript

`scanLine` is the body of the loop of `_scan_file`, `scanFile` the loop: one entry for each
line that carries usage.  A line is what reading the file gives, a text or an exception; an
`OSError` ends the loop and keeps the entries so far, any other exception leaves the
function.

`account` adds the entries of a file to the totals of a refresh; `account_eq` says what that
comes to, whatever the order of the files.
-/

namespace SiliconOffice
namespace Frontend

open Library Python Common

/-- One `(timestamp, cost, tokens)`. -/
structure UsageEntry where
  timestamp : ℚ
  cost : Number
  tokens : Number
  deriving DecidableEq

def sessionWindowSeconds : ℚ := 5 * 3600

/-- What the code asks of `json` and `datetime`. -/
structure UsageReader where
  json : JsonModule
  /-- `datetime.fromisoformat(text).timestamp()`. -/
  timestampOf : String → Except PyErr ℚ
  /-- `_week_window_start`, in the local time of the machine. -/
  weekWindowStart : ℚ → ℚ

/-- `text.replace("Z", "+00:00")`. -/
def zuluAsOffset (text : String) : String :=
  String.ofList (text.toList.flatMap fun char => if char = 'Z' then "+00:00".toList else [char])

namespace UsageReader

variable (reader : UsageReader)

/-- `_parse_ts`. -/
def parseTs : Json → Except PyErr ℚ
  | .str text =>
      match reader.timestampOf (zuluAsOffset text) with
      | .ok timestamp => .ok timestamp
      | .error exception => if exception.isValueError then .ok 0 else .error exception
  | _ => .ok 0

/-- A usage record of a line: `message.usage`, with the model that it is for. -/
def usageOf (record : Json) : Except PyErr (Option (Json × Json)) := do
  let message ← record.get "message" .null
  if message.isObject then
    let usage ← message.get "usage" .null
    if usage.isObject then
      let model ← message.get "model" (.str "")
      .ok (some (model, usage))
    else .ok none
  else .ok none

/-- The entry of a usage record. -/
def entryFor (record model usage : Json) : Except PyErr UsageEntry := do
  let cost ← costForUsage model usage
  let inputTokens ← countOf usage "input_tokens"
  let outputTokens ← countOf usage "output_tokens"
  let cacheWrite ← countOf usage "cache_creation_input_tokens"
  let cacheRead ← countOf usage "cache_read_input_tokens"
  let stamp ← record.get "timestamp" .null
  let timestamp ← reader.parseTs stamp
  .ok ⟨timestamp, cost, inputTokens + outputTokens + cacheWrite + cacheRead⟩

/-- The body of the loop of `_scan_file`. -/
def scanLine (text : String) : Except PyErr (Option UsageEntry) :=
  let line := strip text
  if line.isEmpty then .ok none
  else
    match reader.json.loads line with
    | .error exception => if exception.isValueError then .ok none else .error exception
    | .ok record => do
        match ← usageOf record with
        | some (model, usage) => do
            let entry ← reader.entryFor record model usage
            .ok (some entry)
        | none => .ok none

/-- A line as the file gives it. -/
def scanReading (line : Except PyErr String) : Except PyErr (Option UsageEntry) :=
  line >>= reader.scanLine

/-- `_scan_file`. -/
def scanFile : List (Except PyErr String) → Except PyErr (List UsageEntry)
  | [] => .ok []
  | line :: rest =>
      match reader.scanReading line with
      | .ok none => scanFile rest
      | .ok (some entry) => do
          let others ← scanFile rest
          .ok (entry :: others)
      | .error exception => if exception.isOSError then .ok [] else .error exception

end UsageReader

/-! ## Scanning -/

namespace UsageReader

variable (reader : UsageReader)

/-- The entry of a line, if the line has one. -/
def entryOf (line : Except PyErr String) : Option UsageEntry :=
  match reader.scanReading line with
  | .ok entry => entry
  | .error _ => none

/-- The first lines of a file have given these entries, and the loop goes on. -/
def Scanned (done : List (Except PyErr String)) (entries : List UsageEntry) : Prop :=
  ∀ rest, reader.scanFile (done ++ rest) = (reader.scanFile rest).map (entries ++ ·)

/-- A JSON object whose usage, if it has any, has numbers for token counts. -/
def TranscriptLine (line : Except PyErr String) : Prop :=
  ∃ text record, line = .ok text ∧ reader.json.loads (strip text) = .ok record ∧
    record.isObject = true ∧
    ∀ model usage, usageOf record = .ok (some (model, usage)) →
      ∀ name ∈ tokenKeys, IsCount ((usage.get? name).getD .null)

/-- The model of the usage can be looked up, and its timestamp is one or is rejected with a
`ValueError`. -/
def Countable (line : Except PyErr String) : Prop :=
  ∀ text record model usage, line = .ok text → reader.json.loads (strip text) = .ok record →
    usageOf record = .ok (some (model, usage)) →
    (∃ key, model.hash = .ok key) ∧
      ∀ stamp exception, record.get? "timestamp" = some (.str stamp) →
        reader.timestampOf (zuluAsOffset stamp) = .error exception →
        exception.isValueError = true

variable {reader} {done rest : List (Except PyErr String)} {entries : List UsageEntry}
  {line : Except PyErr String} {exception : PyErr}

/-- No JSON text is blank. -/
theorem isEmpty_of_loads {text : String} {record : Json}
    (hloads : reader.json.loads (strip text) = .ok record) : (strip text).isEmpty = false := by
  refine eq_false_of_ne_true fun hempty => ?_
  rw [String.isEmpty_iff.mp hempty] at hloads
  cases hloads

/-- A line that is JSON gives the entry of its usage record. -/
theorem scanReading_of_loads {text : String} {record : Json}
    (hloads : reader.json.loads (strip text) = .ok record) :
    reader.scanReading (.ok text) = (do
      match ← usageOf record with
      | some (model, usage) => do
          let entry ← reader.entryFor record model usage
          .ok (some entry)
      | none => .ok none) := by
  unfold scanReading
  rw [ok_bind]
  unfold scanLine
  dsimp only
  rw [isEmpty_of_loads hloads, if_neg Bool.false_ne_true, hloads]

theorem scanFile_next {yielded : Option UsageEntry} (hline : reader.scanReading line = .ok yielded)
    (rest : List (Except PyErr String)) :
    reader.scanFile (line :: rest) = (reader.scanFile rest).map (yielded.toList ++ ·) := by
  rw [scanFile, hline]
  cases yielded with
  | none => cases reader.scanFile rest <;> rfl
  | some entry => cases reader.scanFile rest <;> rfl

theorem scanned_nil : reader.Scanned [] [] := by
  intro rest
  cases hscan : reader.scanFile rest <;> simp [hscan, Except.map]

theorem Scanned.next {yielded : Option UsageEntry} (h : reader.Scanned done entries)
    (hline : reader.scanReading line = .ok yielded) :
    reader.Scanned (done ++ [line]) (entries ++ yielded.toList) := by
  intro rest
  rw [List.append_assoc, List.singleton_append, h, scanFile_next hline]
  cases reader.scanFile rest with
  | error exception => rfl
  | ok others => exact congrArg Except.ok (List.append_assoc ..).symm

/-- At the end of the file. -/
theorem Scanned.whole (h : reader.Scanned done entries) : reader.scanFile done = .ok entries := by
  have hend := h []
  rw [List.append_nil] at hend
  rw [hend]
  exact congrArg Except.ok (List.append_nil entries)

/-- An `OSError` ends the loop with the entries so far. -/
theorem Scanned.broken (h : reader.Scanned done entries)
    (hline : reader.scanReading line = .error exception) (hexception : exception.isOSError = true)
    (rest : List (Except PyErr String)) : reader.scanFile (done ++ line :: rest) = .ok entries := by
  rw [h, scanFile, hline]
  dsimp only
  rw [if_pos hexception]
  exact congrArg Except.ok (List.append_nil entries)

theorem parseTs_returns {stamp : Json}
    (h : ∀ text exception, stamp = .str text →
      reader.timestampOf (zuluAsOffset text) = .error exception → exception.isValueError = true) :
    ∃ timestamp, reader.parseTs stamp = .ok timestamp := by
  cases stamp with
  | str text =>
      rw [parseTs]
      cases htext : reader.timestampOf (zuluAsOffset text) with
      | ok timestamp => exact ⟨timestamp, rfl⟩
      | error exception => exact ⟨0, if_pos (h text exception rfl htext)⟩
  | null => exact ⟨0, rfl⟩
  | bool value => exact ⟨0, rfl⟩
  | int value => exact ⟨0, rfl⟩
  | float value => exact ⟨0, rfl⟩
  | arr items => exact ⟨0, rfl⟩
  | obj members => exact ⟨0, rfl⟩

theorem usageOf_returns {record : Json} (hobject : record.isObject = true) :
    ∃ found, usageOf record = .ok found ∧
      ∀ model usage, found = some (model, usage) → usage.isObject = true := by
  unfold usageOf
  rw [Json.get_of_isObject hobject, ok_bind]
  split
  · rename_i hmessage
    rw [Json.get_of_isObject hmessage, ok_bind]
    split
    · rename_i husage
      rw [Json.get_of_isObject hmessage, ok_bind]
      refine ⟨_, rfl, ?_⟩
      rintro model usage ⟨⟩
      exact husage
    · exact ⟨none, rfl, fun model usage h => by cases h⟩
  · exact ⟨none, rfl, fun model usage h => by cases h⟩

theorem entryFor_returns {record model usage : Json} (hobject : record.isObject = true)
    (husage : usage.isObject = true) {key : DictKey} (hmodel : model.hash = .ok key)
    (hcounts : ∀ name ∈ tokenKeys, IsCount ((usage.get? name).getD .null))
    (hstamp : ∀ stamp exception, record.get? "timestamp" = some (.str stamp) →
      reader.timestampOf (zuluAsOffset stamp) = .error exception → exception.isValueError = true) :
    ∃ entry, reader.entryFor record model usage = .ok entry := by
  obtain ⟨cost, hcost⟩ := costForUsage_returns husage hmodel hcounts
  have hcount : ∀ name ∈ tokenKeys, ∃ number, countOf usage name = .ok number :=
    fun name hname => countOf_returns husage (hcounts name hname)
  obtain ⟨input, hinput⟩ := hcount "input_tokens" (by decide)
  obtain ⟨output, houtput⟩ := hcount "output_tokens" (by decide)
  obtain ⟨write, hwrite⟩ := hcount "cache_creation_input_tokens" (by decide)
  obtain ⟨read, hread⟩ := hcount "cache_read_input_tokens" (by decide)
  have hparse : ∃ timestamp,
      reader.parseTs ((record.get? "timestamp").getD .null) = .ok timestamp := by
    refine parseTs_returns fun text exception htext => hstamp text exception ?_
    cases hfound : record.get? "timestamp" with
    | none =>
        rw [hfound] at htext
        cases htext
    | some value =>
        rw [hfound] at htext
        exact congrArg some htext
  obtain ⟨timestamp, htimestamp⟩ := hparse
  unfold entryFor
  simp only [hcost, hinput, houtput, hwrite, hread, Json.get_of_isObject hobject, ok_bind,
    htimestamp]
  exact ⟨_, rfl⟩

/-- A transcript line that can be counted raises nothing. -/
theorem scanReading_returns (hline : reader.TranscriptLine line) (h : reader.Countable line) :
    reader.scanReading line = .ok (reader.entryOf line) := by
  suffices ∃ yielded, reader.scanReading line = .ok yielded by
    obtain ⟨yielded, hentry⟩ := this
    unfold entryOf
    rw [hentry]
  obtain ⟨text, record, rfl, hloads, hobject, hcounts⟩ := hline
  obtain ⟨found, hfound, husageObject⟩ := usageOf_returns hobject
  rw [scanReading_of_loads hloads, hfound]
  cases found with
  | none => exact ⟨none, rfl⟩
  | some pair =>
      obtain ⟨model, usage⟩ := pair
      obtain ⟨⟨key, hmodel⟩, hstamp⟩ := h text record model usage rfl hloads hfound
      obtain ⟨entry, hentry⟩ := entryFor_returns hobject (husageObject model usage rfl) hmodel
        (hcounts model usage hfound) hstamp
      refine ⟨some entry, ?_⟩
      simp only [ok_bind, hentry]

theorem valueError_of_parseTs {stamp : String} {timestamp : ℚ}
    (h : reader.parseTs (.str stamp) = .ok timestamp)
    (hexception : reader.timestampOf (zuluAsOffset stamp) = .error exception) :
    exception.isValueError = true := by
  rw [parseTs, hexception] at h
  dsimp only at h
  split at h
  · assumption
  · cases h

/-- An entry needs a model that can be looked up and a timestamp that does not raise. -/
theorem countable_of_entryFor {record model usage : Json} {entry : UsageEntry}
    (h : reader.entryFor record model usage = .ok entry) :
    (∃ key, model.hash = .ok key) ∧
      ∀ stamp exception, record.get? "timestamp" = some (.str stamp) →
        reader.timestampOf (zuluAsOffset stamp) = .error exception →
        exception.isValueError = true := by
  obtain ⟨cost, hcost, h⟩ := exists_of_bind_ok h
  obtain ⟨inputTokens, -, h⟩ := exists_of_bind_ok h
  obtain ⟨outputTokens, -, h⟩ := exists_of_bind_ok h
  obtain ⟨cacheWrite, -, h⟩ := exists_of_bind_ok h
  obtain ⟨cacheRead, -, h⟩ := exists_of_bind_ok h
  obtain ⟨value, hvalue, h⟩ := exists_of_bind_ok h
  obtain ⟨timestamp, htimestamp, -⟩ := exists_of_bind_ok h
  refine ⟨hash_of_costForUsage hcost, fun stamp exception hstamp hexception => ?_⟩
  cases record with
  | obj members =>
      cases hvalue
      rw [show members.lookup "timestamp" = some (.str stamp) from hstamp] at htimestamp
      exact valueError_of_parseTs htimestamp hexception
  | _ => cases hstamp

/-- **A transcript line raises exactly when it cannot be counted.** -/
theorem scanReading_returns_iff (hline : reader.TranscriptLine line) :
    reader.scanReading line = .ok (reader.entryOf line) ↔ reader.Countable line := by
  refine ⟨fun h => ?_, scanReading_returns hline⟩
  obtain ⟨text, record, rfl, hloads, -⟩ := hline
  rintro text record' model usage ⟨⟩ hloads' hfound
  obtain rfl := Except.ok.inj (hloads.symm.trans hloads')
  rw [scanReading_of_loads hloads, hfound, ok_bind] at h
  obtain ⟨entry, hentry, -⟩ := exists_of_bind_ok h
  exact countable_of_entryFor hentry

/-- A file whose lines raise nothing gives the entries of its lines. -/
theorem scanFile_of_returns {lines : List (Except PyErr String)}
    (h : ∀ line ∈ lines, reader.scanReading line = .ok (reader.entryOf line)) :
    reader.scanFile lines = .ok (lines.filterMap reader.entryOf) := by
  induction lines with
  | nil => rfl
  | cons line rest ih =>
      rw [scanFile_next (h line List.mem_cons_self),
        ih fun other hother => h other (List.mem_cons_of_mem _ hother), List.filterMap_cons]
      cases reader.entryOf line <;> rfl

end UsageReader

/-! ## Totals -/

/-- `UsageSnapshot`. -/
structure UsageSnapshot where
  sessionCost : Number := 0
  sessionTokens : Number := 0
  weekCost : Number := 0
  weekTokens : Number := 0
  deriving DecidableEq

/-- The two cutoffs of a refresh. -/
structure Cutoffs where
  session : ℚ
  week : ℚ

/-- The cutoffs at the time `now`. -/
def UsageReader.cutoffs (reader : UsageReader) (now : ℚ) : Cutoffs where
  session := now - sessionWindowSeconds
  week := reader.weekWindowStart now

/-- One entry of the loop of `_refresh`. -/
def accountEntry (cutoffs : Cutoffs) (totals : UsageSnapshot) (entry : UsageEntry) :
    UsageSnapshot :=
  let totals :=
    if cutoffs.week ≤ entry.timestamp then
      { totals with
        weekCost := totals.weekCost + entry.cost
        weekTokens := totals.weekTokens + entry.tokens }
    else totals
  if cutoffs.session ≤ entry.timestamp then
    { totals with
      sessionCost := totals.sessionCost + entry.cost
      sessionTokens := totals.sessionTokens + entry.tokens }
  else totals

/-- The entries of one file. -/
def account (cutoffs : Cutoffs) (totals : UsageSnapshot) (entries : List UsageEntry) :
    UsageSnapshot :=
  entries.foldl (accountEntry cutoffs) totals

theorem account_append (cutoffs : Cutoffs) (totals : UsageSnapshot)
    (entries others : List UsageEntry) :
    account cutoffs totals (entries ++ others) =
      account cutoffs (account cutoffs totals entries) others := List.foldl_append

/-- The sum of what the entries since the cutoff say. -/
def sumSince (cutoff : ℚ) (amount : UsageEntry → Number) (entries : List UsageEntry) : Number :=
  ((entries.filter fun entry => decide (cutoff ≤ entry.timestamp)).map amount).sum

/-- The four sums over the entries. -/
def snapshotOf (cutoffs : Cutoffs) (entries : List UsageEntry) : UsageSnapshot where
  sessionCost := sumSince cutoffs.session (·.cost) entries
  sessionTokens := sumSince cutoffs.session (·.tokens) entries
  weekCost := sumSince cutoffs.week (·.cost) entries
  weekTokens := sumSince cutoffs.week (·.tokens) entries

theorem sumSince_perm {cutoff : ℚ} {amount : UsageEntry → Number}
    {entries entries' : List UsageEntry} (h : entries.Perm entries') :
    sumSince cutoff amount entries = sumSince cutoff amount entries' :=
  ((h.filter _).map amount).sum_eq

theorem sumSince_concat (cutoff : ℚ) (amount : UsageEntry → Number) (entries : List UsageEntry)
    (entry : UsageEntry) :
    sumSince cutoff amount (entries ++ [entry]) =
      if cutoff ≤ entry.timestamp then sumSince cutoff amount entries + amount entry
      else sumSince cutoff amount entries := by
  unfold sumSince
  rw [List.filter_append, List.map_append, List.sum_append, List.filter_cons, List.filter_nil]
  split <;> simp_all

/-- Accounting for entries one after the other sums them up. -/
theorem account_eq (cutoffs : Cutoffs) (entries : List UsageEntry) :
    account cutoffs {} entries = snapshotOf cutoffs entries := by
  unfold account
  induction entries using List.reverseRecOn with
  | nil => rfl
  | append_singleton earlier entry ih =>
      rw [List.foldl_concat, ih]
      unfold accountEntry snapshotOf
      simp only [sumSince_concat]
      split <;> split <;> rfl

theorem snapshotOf_perm (cutoffs : Cutoffs) {entries entries' : List UsageEntry}
    (h : entries.Perm entries') : snapshotOf cutoffs entries = snapshotOf cutoffs entries' := by
  unfold snapshotOf
  simp only [sumSince_perm h]

end Frontend
end SiliconOffice
