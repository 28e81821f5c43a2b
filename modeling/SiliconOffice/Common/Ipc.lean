import SiliconOffice.Library.Framing
import SiliconOffice.Python.Json

/-!
# NDJSON encoding and buffered line framing

Every participant speaks newline-delimited JSON.  A datagram is one message; a
TCP stream may be split mid-message or coalesce several messages in one read, and
`NDJSONBuffer` holds back the partial line at the end.

The buffer is compared with the one-shot view of the stream: `frames newline` are
the lines of everything received so far, `pending newline` is the open rest.
`feedLoop_eq` is the step (one `feed`), `feedAll_eq` the run (any chunking).
-/

namespace SiliconOffice
namespace Common

open Library Python

abbrev Bytes := List UInt8

/-- `b"\n"`. -/
def newline : UInt8 := 10

/-- The bytes that `bytes.strip()` strips. -/
def isSpace (byte : UInt8) : Bool :=
  byte == 9 || byte == 10 || byte == 11 || byte == 12 || byte == 13 || byte == 32

/-- `not line.strip()`. -/
def isBlank (line : Bytes) : Bool :=
  line.all isSpace

/-- `text.encode("utf-8")`. -/
def encodeUtf8 (text : String) : Bytes :=
  text.toByteArray.data.toList

/-- `line.decode("utf-8")`. -/
def decodeUtf8 (line : Bytes) : Except PyErr String :=
  match String.fromUTF8? ⟨line.toArray⟩ with
  | some text => .ok text
  | none => .error .unicodeDecodeError

/-- The `json` module: `dumps` with compact separators, and what `loads` makes of a
text that is not blank. -/
structure JsonModule where
  dumps : Json → String
  parse : String → Except PyErr Json

/-- `json.loads`.  A text with nothing but white space holds no value. -/
def JsonModule.loads (json : JsonModule) (text : String) : Except PyErr Json :=
  if isBlank (encodeUtf8 text) then .error .jsonDecodeError else json.parse text

/-- `loads` fails with `JSONDecodeError` only. -/
def JsonModule.FailsOnlyToDecode (json : JsonModule) : Prop :=
  ∀ text exception, json.parse text = .error exception → exception = .jsonDecodeError

def encodeMessage (json : JsonModule) (obj : Json) : Bytes :=
  encodeUtf8 (json.dumps obj ++ "\n")

/-- Best-effort decode of one line; `None`, which is also the value of the line
`null`, on the failures that are caught. -/
def decodeMessage (json : JsonModule) (line : Bytes) : Except PyErr Json :=
  match decodeUtf8 line >>= json.loads with
  | .ok obj => .ok obj
  | .error .jsonDecodeError | .error .unicodeDecodeError => .ok .null
  | .error exception => .error exception

/-- The bytes received and not yet delivered as part of a line. -/
structure NDJSONBuffer where
  buf : Bytes

def NDJSONBuffer.fresh : NDJSONBuffer := ⟨[]⟩

/-- The loop of `feed`: take one line after the other off the buffer.  When
decoding raises, the lines up to and including that one are gone. -/
def feedLoop (json : JsonModule) (messages : List Json) (buf : Bytes) :
    EStateM.Result PyErr NDJSONBuffer (List Json) :=
  if _h : newline ∈ buf then
    let line := buf.takeWhile (· != newline)
    let rest := (buf.dropWhile (· != newline)).drop 1
    if isBlank line then feedLoop json messages rest
    else
      match decodeMessage json line with
      | .ok obj => feedLoop json (if obj.isNone then messages else messages ++ [obj]) rest
      -- `_buf` was cut before decoding, so the bad line is gone too
      | .error exception => .error exception ⟨rest⟩
  else .ok messages ⟨buf⟩
termination_by buf.length
decreasing_by
  all_goals
    have hpos : 0 < buf.length := List.length_pos_of_mem _h
    have hle := (List.dropWhile_sublist (l := buf) (· != newline)).length_le
    rw [List.length_drop]
    omega

/-- `NDJSONBuffer.feed`. -/
def NDJSONBuffer.feed (json : JsonModule) (data : Bytes) :
    EStateM PyErr NDJSONBuffer (List Json) := fun self =>
  feedLoop json [] (self.buf ++ data)

/-- Feed chunks in order and concatenate what they return. -/
def feedAll (json : JsonModule) : List Bytes → EStateM PyErr NDJSONBuffer (List Json)
  | [] => pure []
  | chunk :: rest => do
      let messages ← NDJSONBuffer.feed json chunk
      let others ← feedAll json rest
      pure (messages ++ others)

/-! ## The one-shot view -/

/-- The message a line stands for, if it stands for one. -/
def messageOf (json : JsonModule) (line : Bytes) : Option Json :=
  if isBlank line then none
  else
    match decodeMessage json line with
    | .ok obj => if obj.isNone then none else some obj
    | .error _ => none

/-- What `loads` makes of a line, `None` left out. -/
def loaded (json : JsonModule) (line : Bytes) : Option Json :=
  match decodeUtf8 line >>= json.loads with
  | .ok obj => if obj.isNone then none else some obj
  | .error _ => none

/-- Decoding the line returns or raises what `decode_message` catches. -/
def Caught (json : JsonModule) (line : Bytes) : Prop :=
  ∀ exception, decodeUtf8 line >>= json.loads = .error exception →
    exception = .jsonDecodeError ∨ exception = .unicodeDecodeError

theorem decodeMessage_of_caught {json : JsonModule} {line : Bytes} (h : Caught json line)
    {exception : PyErr} (hraises : decodeUtf8 line >>= json.loads = .error exception) :
    decodeMessage json line = .ok .null := by
  unfold decodeMessage
  rw [hraises]
  rcases h exception hraises with rfl | rfl <;> rfl

theorem decodeMessage_eq_null {json : JsonModule} {line : Bytes} {exception : PyErr}
    (hraises : decodeUtf8 line >>= json.loads = .error exception)
    (hnull : decodeMessage json line = .ok .null) :
    exception = .jsonDecodeError ∨ exception = .unicodeDecodeError := by
  unfold decodeMessage at hnull
  rw [hraises] at hnull
  cases exception <;> first | exact .inl rfl | exact .inr rfl | cases hnull

theorem exists_decodeMessage {json : JsonModule} {line : Bytes} (h : Caught json line) :
    ∃ obj, decodeMessage json line = .ok obj := by
  cases hvalue : decodeUtf8 line >>= json.loads with
  | ok obj =>
      refine ⟨obj, ?_⟩
      unfold decodeMessage
      rw [hvalue]
  | error exception => exact ⟨.null, decodeMessage_of_caught h hvalue⟩

theorem encodeUtf8_of_decodeUtf8 {line : Bytes} {text : String} (h : decodeUtf8 line = .ok text) :
    encodeUtf8 text = line := by
  unfold decodeUtf8 String.fromUTF8? at h
  split at h
  · rename_i found hfound
    split at hfound
    · cases Option.some.inj hfound
      cases Except.ok.inj h
      rfl
    · cases hfound
  · cases h

/-- A blank line holds no value. -/
theorem loaded_of_isBlank (json : JsonModule) {line : Bytes} (h : isBlank line = true) :
    loaded json line = none := by
  unfold loaded
  cases htext : decodeUtf8 line with
  | error exception => rfl
  | ok text =>
      rw [ok_bind]
      unfold JsonModule.loads
      rw [encodeUtf8_of_decodeUtf8 htext, if_pos h]

/-- The messages delivered are those that `loads` returns. -/
theorem messageOf_eq_loaded {json : JsonModule} {line : Bytes} (h : Caught json line) :
    messageOf json line = loaded json line := by
  unfold messageOf
  by_cases hblank : isBlank line = true
  · rw [if_pos hblank, loaded_of_isBlank json hblank]
  · rw [if_neg hblank]
    unfold loaded
    cases hvalue : decodeUtf8 line >>= json.loads with
    | ok obj =>
        unfold decodeMessage
        rw [hvalue]
    | error exception =>
        rw [decodeMessage_of_caught h hvalue]
        rfl

theorem caught_of_failsOnlyToDecode {json : JsonModule} (hjson : json.FailsOnlyToDecode)
    (line : Bytes) : Caught json line := by
  intro exception h
  cases htext : decodeUtf8 line with
  | error other =>
      have hother : other = .unicodeDecodeError := by
        unfold decodeUtf8 at htext
        split at htext
        · cases htext
        · exact (Except.error.inj htext).symm
      rw [htext] at h
      exact .inr (hother ▸ (Except.error.inj h).symm)
  | ok text =>
      rw [htext, ok_bind] at h
      unfold JsonModule.loads at h
      split at h
      · exact .inl (Except.error.inj h).symm
      · exact .inl (hjson text exception h)

/-! ## The loop of `feed` -/

/-- One turn of the loop: the first line goes, and leaves its message if it has one. -/
theorem feedLoop_line {json : JsonModule} {line : Bytes}
    (hdecode : ∃ obj, decodeMessage json line = .ok obj) (hline : newline ∉ line)
    (messages : List Json) (rest : Bytes) :
    feedLoop json messages (line ++ newline :: rest) =
      feedLoop json (messages ++ (messageOf json line).toList) rest := by
  have hmem : newline ∈ line ++ newline :: rest := by simp
  have hall : ∀ byte ∈ line, (byte != newline) = true := fun byte hbyte =>
    bne_iff_ne.mpr fun heq => hline (heq ▸ hbyte)
  have hfirst : (line ++ newline :: rest).takeWhile (· != newline) = line := by
    rw [List.takeWhile_append_of_pos hall]
    simp
  have hlast : ((line ++ newline :: rest).dropWhile (· != newline)).drop 1 = rest := by
    rw [List.dropWhile_append_of_pos hall]
    simp
  rw [feedLoop, dif_pos hmem]
  simp only [hfirst, hlast]
  unfold messageOf
  by_cases hblank : isBlank line = true
  · rw [if_pos hblank, if_pos hblank, Option.toList_none, List.append_nil]
  · rw [if_neg hblank, if_neg hblank]
    obtain ⟨obj, hobj⟩ := hdecode
    rw [hobj]
    by_cases hnone : obj.isNone = true <;> simp [hnone]

/-- **One `feed`.**  When decoding its complete lines does not raise, the loop delivers
their messages and keeps what is still open. -/
theorem feedLoop_eq {json : JsonModule} (messages : List Json) {buf : Bytes}
    (hdecode : ∀ line ∈ frames newline buf, ∃ obj, decodeMessage json line = .ok obj) :
    feedLoop json messages buf =
      .ok (messages ++ (frames newline buf).filterMap (messageOf json))
        ⟨pending newline buf⟩ := by
  induction buf using stream_induction newline generalizing messages with
  | opened stream hstream =>
      rw [feedLoop, dif_neg hstream, frames_of_not_mem hstream, pending_of_not_mem hstream,
        List.filterMap_nil, List.append_nil]
  | closed line rest hline ih =>
      rw [frames_cut hline] at hdecode
      rw [feedLoop_line (hdecode line List.mem_cons_self) hline,
        ih _ fun other hother => hdecode other (List.mem_cons_of_mem _ hother),
        frames_cut hline, pending_cut hline]
      cases hmessage : messageOf json line <;> simp [hmessage]

/-- A chunk is read together with the open rest of the stream before it. -/
theorem run_feed {json : JsonModule} {stream chunk : Bytes}
    (hdecode : ∀ line ∈ frames newline (pending newline stream ++ chunk),
      ∃ obj, decodeMessage json line = .ok obj) :
    (NDJSONBuffer.feed json chunk).run ⟨pending newline stream⟩ =
      .ok ((frames newline (pending newline stream ++ chunk)).filterMap (messageOf json))
        ⟨pending newline (stream ++ chunk)⟩ := by
  rw [pending_append newline stream chunk]
  exact feedLoop_eq [] hdecode

/-- **Any chunking.**  Whatever the buffer has read so far, further chunks deliver the
messages of the lines that the whole stream now closes, and the buffer holds the
open rest of the whole stream. -/
theorem feedAll_eq {json : JsonModule} (chunks : List Bytes) (stream : Bytes)
    (hdecode : ∀ line ∈ frames newline (pending newline stream ++ chunks.flatten),
      ∃ obj, decodeMessage json line = .ok obj) :
    (feedAll json chunks).run ⟨pending newline stream⟩ =
      .ok ((frames newline (pending newline stream ++ chunks.flatten)).filterMap
          (messageOf json))
        ⟨pending newline (stream ++ chunks.flatten)⟩ := by
  -- on the chunks: what was read before them is any stream whose open rest is buffered
  induction chunks generalizing stream with
  | nil =>
      rw [List.flatten_nil, List.append_nil, List.append_nil,
        frames_of_not_mem (not_mem_pending newline stream)]
      rfl
  | cons chunk rest ih =>
      rw [List.flatten_cons, frames_chunks] at hdecode
      have hfeed := @run_feed json stream chunk fun line hline =>
        hdecode line (List.mem_append_left _ hline)
      rw [feedAll, EStateM.run_bind, hfeed]
      dsimp only
      rw [EStateM.run_bind, ih (stream ++ chunk) fun line hline =>
          hdecode line (List.mem_append_right _ hline),
        List.flatten_cons, frames_chunks, List.filterMap_append, List.append_assoc]
      rfl

/-- A buffer that starts empty reads one stream. -/
theorem feedAll_fresh {json : JsonModule} (chunks : List Bytes)
    (hdecode : ∀ line ∈ frames newline chunks.flatten, ∃ obj, decodeMessage json line = .ok obj) :
    (feedAll json chunks).run .fresh =
      .ok ((frames newline chunks.flatten).filterMap (messageOf json))
        ⟨pending newline chunks.flatten⟩ := by
  have hempty : pending newline ([] : Bytes) = [] := pending_of_not_mem List.not_mem_nil
  have hrun := @feedAll_eq json chunks []
  rw [hempty] at hrun
  exact hrun hdecode

/-! ## Messages on the wire -/

@[simp] theorem decodeUtf8_encodeUtf8 (text : String) :
    decodeUtf8 (encodeUtf8 text) = .ok text := by
  have hbytes : (⟨(encodeUtf8 text).toArray⟩ : ByteArray) = text.toByteArray := rfl
  unfold decodeUtf8
  rw [hbytes, String.fromUTF8?, dif_pos text.isValidUTF8]
  rfl

theorem encodeMessage_eq (json : JsonModule) (obj : Json) :
    encodeMessage json obj = encodeUtf8 (json.dumps obj) ++ [newline] := by
  unfold encodeMessage encodeUtf8
  rw [String.toByteArray_append, ByteArray.data_append, Array.toList_append]
  rfl

/-- What a sender may put on a line: an encoded message, or bytes that decode to
nothing. -/
inductive StreamItem
  | message (obj : Json)
  | noise (line : Bytes)

namespace StreamItem

def bytes (json : JsonModule) : StreamItem → Bytes
  | message obj => encodeMessage json obj
  | noise line => line ++ [newline]

/-- The line of an item, without its newline. -/
def line (json : JsonModule) : StreamItem → Bytes
  | message obj => encodeUtf8 (json.dumps obj)
  | noise line => line

def message? : StreamItem → Option Json
  | message obj => some obj
  | noise _ => none

/-- A message is an object that `loads` gives back from its one-line `dumps`; noise is
one line that `decode_message` cannot decode. -/
def Admissible (json : JsonModule) : StreamItem → Prop
  | message obj =>
      obj.isObject = true ∧ json.loads (json.dumps obj) = .ok obj ∧
        newline ∉ encodeUtf8 (json.dumps obj)
  | noise line => newline ∉ line ∧ decodeMessage json line = .ok .null

theorem bytes_eq (json : JsonModule) (item : StreamItem) :
    item.bytes json = item.line json ++ [newline] := by
  cases item with
  | message obj => exact encodeMessage_eq json obj
  | noise line => rfl

variable {json : JsonModule} {item : StreamItem}

theorem newline_not_mem_line (h : item.Admissible json) : newline ∉ item.line json := by
  cases item with
  | message obj => exact h.2.2
  | noise line => exact h.1

/-- A message that `loads` gives back is decoded from its line. -/
theorem decodeMessage_line {obj : Json} (h : (message obj).Admissible json) :
    decodeMessage json (encodeUtf8 (json.dumps obj)) = .ok obj := by
  unfold decodeMessage
  rw [decodeUtf8_encodeUtf8]
  change (match json.loads (json.dumps obj) with
    | .ok obj => Except.ok obj
    | .error .jsonDecodeError | .error .unicodeDecodeError => .ok .null
    | .error exception => .error exception) = .ok obj
  rw [h.2.1]

theorem messageOf_line (h : item.Admissible json) :
    messageOf json (item.line json) = item.message? := by
  cases item with
  | message obj =>
      have hdecode := decodeMessage_line h
      obtain ⟨hobject, hloads, -⟩ := h
      have hblank : ¬ isBlank (encodeUtf8 (json.dumps obj)) = true := by
        intro hblank
        rw [JsonModule.loads, if_pos hblank] at hloads
        cases hloads
      have hnone : obj.isNone = false := by
        obtain ⟨members, rfl⟩ := Json.isObject_iff.mp hobject
        rfl
      unfold messageOf line message?
      rw [if_neg hblank, hdecode]
      simp [hnone]
  | noise bytes =>
      unfold messageOf line message?
      rw [h.2]
      simp [Json.isNone]

end StreamItem

/-- **Framing.**  For every chunking of every byte string, the buffer returns the
messages of its newline-terminated lines, in order, and retains the bytes after the
last newline; so encoded messages come through any chunking once each and in order,
whatever undecodable lines stand between them. -/
theorem feedAll_delivers_lines (json : JsonModule) (hjson : json.FailsOnlyToDecode) :
    (∀ chunks : List Bytes,
      (feedAll json chunks).run .fresh =
        .ok ((frames newline chunks.flatten).filterMap (messageOf json))
          ⟨pending newline chunks.flatten⟩) ∧
    (∀ (items : List StreamItem) (chunks : List Bytes),
      (∀ item ∈ items, item.Admissible json) →
      chunks.flatten = items.flatMap (StreamItem.bytes json) →
      (feedAll json chunks).run .fresh = .ok (items.filterMap StreamItem.message?) .fresh) := by
  have hlines : ∀ chunks : List Bytes,
      (feedAll json chunks).run .fresh =
        .ok ((frames newline chunks.flatten).filterMap (messageOf json))
          ⟨pending newline chunks.flatten⟩ := by
    intro chunks
    exact feedAll_fresh chunks fun line _ =>
      exists_decodeMessage (caught_of_failsOnlyToDecode hjson line)
  refine ⟨hlines, fun items chunks hitems hchunks => ?_⟩
  have hclosed : ∀ line ∈ items.map (StreamItem.line json), newline ∉ line := by
    intro line hline
    obtain ⟨item, hitem, rfl⟩ := List.mem_map.mp hline
    exact StreamItem.newline_not_mem_line (hitems item hitem)
  have hstream : chunks.flatten =
      (items.map (StreamItem.line json)).flatMap fun line => line ++ [newline] := by
    rw [hchunks, List.flatMap_map]
    exact List.flatMap_congr fun item _ => item.bytes_eq json
  have hmessages : (items.map (StreamItem.line json)).filterMap (messageOf json) =
      items.filterMap StreamItem.message? := by
    rw [List.filterMap_map]
    exact List.filterMap_congr fun item hitem => StreamItem.messageOf_line (hitems item hitem)
  rw [hlines, hstream, frames_closed hclosed, pending_closed hclosed, hmessages]
  rfl

/-- A `json` module that knows one message. -/
def oneMessageJson : JsonModule where
  dumps _ := "\x7b\x7d"
  parse text := if text = "\x7b\x7d" then .ok (.obj []) else .error .jsonDecodeError

/-- The message, an undecodable line and the message again, cut inside the first. -/
theorem feedAll_delivers_lines_twice :
    (feedAll oneMessageJson [[123], [125, 10, 255, 10, 123, 125, 10]]).run .fresh =
      .ok [.obj [], .obj []] .fresh :=
  (feedAll_delivers_lines oneMessageJson (by
      intro text exception h
      unfold oneMessageJson at h
      dsimp only at h
      split at h
      · cases h
      · exact (Except.error.inj h).symm)).2
    [.message (.obj []), .noise [255], .message (.obj [])] _
    (by
      have hmessage : (StreamItem.message (.obj [])).Admissible oneMessageJson :=
        ⟨rfl, rfl, by decide⟩
      have hnoise : (StreamItem.noise [255]).Admissible oneMessageJson :=
        ⟨by decide, rfl⟩
      simp only [List.mem_cons, List.not_mem_nil, or_false, forall_eq_or_imp, forall_eq]
      exact ⟨hmessage, hnoise, hmessage⟩)
    (by rfl)

end Common
end SiliconOffice
