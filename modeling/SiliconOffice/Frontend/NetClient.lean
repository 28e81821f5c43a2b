import SiliconOffice.Common.Ipc

/-!
# The frontend's connection to the daemon

`_run` connects again and again; each connection has a line buffer of its own, and what it
decodes goes to the queue of the render loop between two status messages.  A run is given
the script of what the sockets do: which attempts fail, what each `recv` returns, where a
connection breaks off.  A script that ends is one whose client has been stopped.

`run_readLoop` is one connection, `queue_of_run` any sequence of attempts: a message that
was cut off is dropped with its connection.  `survives_iff` is about bytes of any kind: which
of them get an exception past `decode_message`, and so out of the loop.
-/

namespace SiliconOffice
namespace Frontend

open Library Python Common

/-- The outcome of one `sock.recv`; no bytes mean that the peer has closed. -/
inductive Recv
  | data (chunk : Bytes)
  | timeout
  | osError

/-- The outcome of one `create_connection`, with all that is received after it. -/
inductive Attempt
  | refused
  | connected (recvs : List Recv)

/-- How a connection ends. -/
inductive Ending
  | stopped
  | closed
  | failed
  deriving DecidableEq

namespace NetClient

/-- `{"type": "_conn_status", "connected": connected}`. -/
def connStatus (connected : Bool) : Json :=
  .obj [("type", .str "_conn_status"), ("connected", .bool connected)]

/-- `self._queue.put` for each of the messages. -/
def put (messages : List Json) : EStateM PyErr (List Json) Unit :=
  modify fun queue => queue ++ messages

/-- `_read_loop`, which tells whether it left because the client was stopped. -/
def readLoop (json : JsonModule) : List Recv → NDJSONBuffer → EStateM PyErr (List Json) Bool
  | [], _ => pure true
  | .timeout :: rest, buffer => readLoop json rest buffer
  | .osError :: _, _ => throw .osError
  | .data chunk :: rest, buffer =>
      if chunk.isEmpty then pure false
      else
        match (NDJSONBuffer.feed json chunk).run buffer with
        | .ok messages buffer => do
            put messages
            readLoop json rest buffer
        | .error exception _ => throw exception

/-- The body of the `with` statement. -/
def connect (json : JsonModule) : Attempt → EStateM PyErr (List Json) Bool
  | .refused => throw .osError
  | .connected recvs => do
      put [connStatus true]
      readLoop json recvs .fresh

/-- `_run`. -/
def run (json : JsonModule) : List Attempt → EStateM PyErr (List Json) Unit
  | [] => pure ()
  | attempt :: rest => do
      let stopped ← catchingOSError false (connect json attempt)
      put [connStatus false]
      if stopped then pure () else run json rest

/-! ## What a connection receives -/

/-- The bytes that arrive before the connection ends. -/
def received : List Recv → Bytes
  | [] | .osError :: _ => []
  | .timeout :: rest => received rest
  | .data chunk :: rest => if chunk.isEmpty then [] else chunk ++ received rest

def ending : List Recv → Ending
  | [] => .stopped
  | .osError :: _ => .failed
  | .timeout :: rest => ending rest
  | .data chunk :: rest => if chunk.isEmpty then .closed else ending rest

/-- How the read loop is left. -/
def left : Ending → List Json → EStateM.Result PyErr (List Json) Bool
  | .stopped, queue => .ok true queue
  | .closed, queue => .ok false queue
  | .failed, queue => .error .osError queue

variable {json : JsonModule}

/-- **One connection.**  Whatever the chunking and wherever it ends, the queue gets the
messages of the lines that arrived whole. -/
theorem run_readLoop {recvs : List Recv} {stream : Bytes} {queue : List Json}
    (hdecode : ∀ line ∈ frames newline (pending newline stream ++ received recvs),
      ∃ obj, decodeMessage json line = .ok obj) :
    (readLoop json recvs ⟨pending newline stream⟩).run queue =
      left (ending recvs) (queue ++
        (frames newline (pending newline stream ++ received recvs)).filterMap
          (messageOf json)) := by
  -- on the script: what was read before it is any stream whose open rest is buffered
  induction recvs generalizing stream queue with
  | nil =>
      rw [received, List.append_nil, frames_of_not_mem (not_mem_pending newline stream),
        List.filterMap_nil, List.append_nil]
      rfl
  | cons recv rest ih =>
      cases recv with
      | timeout => exact ih hdecode
      | osError =>
          rw [received, List.append_nil, frames_of_not_mem (not_mem_pending newline stream),
            List.filterMap_nil, List.append_nil]
          rfl
      | data chunk =>
          rw [received] at hdecode ⊢
          rw [readLoop, ending]
          by_cases hchunk : chunk.isEmpty = true
          · simp only [if_pos hchunk, List.append_nil,
              frames_of_not_mem (not_mem_pending newline stream), List.filterMap_nil]
            rfl
          · simp only [if_neg hchunk] at hdecode ⊢
            rw [frames_chunks] at hdecode
            rw [run_feed fun line hline => hdecode line (List.mem_append_left _ hline)]
            dsimp only
            rw [EStateM.run_bind]
            change (readLoop json rest ⟨pending newline (stream ++ chunk)⟩).run (queue ++ _) = _
            rw [ih fun line hline => hdecode line (List.mem_append_right _ hline),
              frames_chunks, List.filterMap_append, List.append_assoc]

/-! ## A sequence of attempts -/

/-- The messages whose whole encoding, with its newline, is among the first bytes. -/
def arrived (json : JsonModule) (sent : List Json) (length : Nat) : List Json :=
  fitting (fun obj => (encodeMessage json obj).length) sent length

/-- What an attempt puts on the queue, given the messages that the daemon was sending: a
status, what arrived whole, a status. -/
def delivered (json : JsonModule) (attempt : Attempt × List Json) : List Json :=
  (match attempt.1 with
    | .refused => []
    | .connected recvs => connStatus true :: arrived json attempt.2 (received recvs).length) ++
  [connStatus false]

/-- What arrives on a connection is a prefix of the encoded messages. -/
def Streams (json : JsonModule) (attempt : Attempt × List Json) : Prop :=
  ∀ recvs, attempt.1 = .connected recvs →
    (∀ obj ∈ attempt.2, (StreamItem.message obj).Admissible json) ∧
      received recvs <+: attempt.2.flatMap (encodeMessage json)

/-- The client was stopped during the attempt. -/
def stops : Attempt → Bool
  | .refused => false
  | .connected recvs => ending recvs = .stopped

/-- The lines of a stream of messages that breaks off. -/
theorem frames_of_stream {sent : List Json} {stream : Bytes}
    (hsent : ∀ obj ∈ sent, (StreamItem.message obj).Admissible json)
    (hinitial : stream <+: sent.flatMap (encodeMessage json)) :
    frames newline stream =
      (arrived json sent stream.length).map fun obj => encodeUtf8 (json.dumps obj) := by
  have hlength : ∀ obj, (encodeMessage json obj).length =
      (encodeUtf8 (json.dumps obj)).length + 1 := fun obj => by
    rw [encodeMessage_eq, List.length_append, List.length_singleton]
  unfold arrived
  simp only [hlength]
  refine frames_of_prefix (fun obj hobj => (hsent obj hobj).2.2) ?_
  simpa only [← encodeMessage_eq] using hinitial

theorem mem_of_mem_arrived {sent : List Json} {length : Nat} {obj : Json}
    (h : obj ∈ arrived json sent length) : obj ∈ sent := by
  unfold arrived at h
  induction sent generalizing length with
  | nil => exact h
  | cons first rest ih =>
      unfold fitting at h
      split at h
      · rcases List.mem_cons.mp h with rfl | hrest
        · exact List.mem_cons_self
        · exact List.mem_cons_of_mem _ (ih hrest)
      · cases h

theorem messages_of_stream {sent : List Json} {stream : Bytes}
    (hsent : ∀ obj ∈ sent, (StreamItem.message obj).Admissible json)
    (hinitial : stream <+: sent.flatMap (encodeMessage json)) :
    (frames newline stream).filterMap (messageOf json) = arrived json sent stream.length := by
  rw [frames_of_stream hsent hinitial, List.filterMap_map]
  calc (arrived json sent stream.length).filterMap _
      = (arrived json sent stream.length).filterMap some :=
        List.filterMap_congr fun obj hobj =>
          StreamItem.messageOf_line (hsent obj (mem_of_mem_arrived hobj))
    _ = arrived json sent stream.length := List.filterMap_some ..

/-- **One attempt.** -/
theorem run_cons {attempt : Attempt × List Json} (h : Streams json attempt)
    (rest : List Attempt) (queue : List Json) :
    (run json (attempt.1 :: rest)).run queue =
      if stops attempt.1 then .ok () (queue ++ delivered json attempt)
      else (run json rest).run (queue ++ delivered json attempt) := by
  obtain ⟨outcome, sent⟩ := attempt
  have hcatch : (catchingOSError false (connect json outcome)).run queue =
      .ok (stops outcome) (queue ++ (delivered json (outcome, sent)).dropLast) := by
    unfold delivered
    rw [List.dropLast_concat]
    cases outcome with
    | refused =>
        rw [List.append_nil]
        rfl
    | connected recvs =>
        obtain ⟨hsent, hinitial⟩ := h recvs rfl
        have hpending : pending newline ([] : Bytes) = [] := pending_of_not_mem List.not_mem_nil
        have hloop := @run_readLoop json recvs [] (queue ++ [connStatus true])
        rw [hpending, List.nil_append, messages_of_stream hsent hinitial, List.append_assoc,
          List.singleton_append] at hloop
        have hconnect : (connect json (.connected recvs)).run queue = left (ending recvs)
            (queue ++ connStatus true :: arrived json sent (received recvs).length) := by
          refine hloop fun line hline => ?_
          rw [frames_of_stream hsent hinitial] at hline
          obtain ⟨obj, hobj, rfl⟩ := List.mem_map.mp hline
          exact ⟨obj, StreamItem.decodeMessage_line (hsent obj (mem_of_mem_arrived hobj))⟩
        rw [run_catchingOSError, hconnect, stops]
        cases ending recvs <;> rfl
  rw [run, EStateM.run_bind, hcatch]
  dsimp only
  rw [EStateM.run_bind]
  change (if stops outcome = true then pure () else run json rest).run
    (queue ++ (delivered json (outcome, sent)).dropLast ++ [connStatus false]) = _
  have hlast : (delivered json (outcome, sent)).dropLast ++ [connStatus false] =
      delivered json (outcome, sent) := by
    unfold delivered
    rw [List.dropLast_concat]
  rw [List.append_assoc, hlast]
  cases stops outcome <;> rfl

/-- **Reconnecting keeps messages apart.**  Every attempt puts on the queue what it was to
put there, whatever came before it: a connected one the messages that arrived whole between
its two statuses, a refused one a status. -/
theorem queue_of_run (json : JsonModule) (attempts : List (Attempt × List Json))
    (queue : List Json) (hstreams : ∀ attempt ∈ attempts, Streams json attempt)
    (hstops : ∀ attempt ∈ attempts.dropLast, stops attempt.1 = false) :
    (run json (attempts.map Prod.fst)).run queue =
      .ok () (queue ++ attempts.flatMap (delivered json)) := by
  induction attempts generalizing queue with
  | nil => exact congrArg (EStateM.Result.ok ()) (List.append_nil queue).symm
  | cons attempt rest ih =>
      have hrest := fun queue => ih queue
        (fun other hother => hstreams other (List.mem_cons_of_mem _ hother))
      rw [List.map_cons, run_cons (hstreams attempt List.mem_cons_self), List.flatMap_cons,
        ← List.append_assoc]
      cases rest with
      | nil => exact (ite_self _).trans (congrArg (EStateM.Result.ok ()) (List.append_nil _).symm)
      | cons next later =>
          rw [hstops attempt (by simp), if_neg Bool.false_ne_true]
          refine hrest _ fun other hother => hstops other ?_
          exact List.mem_cons_of_mem _ hother

/-- A refused attempt, a message cut off by an error, and a connection that closes inside
the second of its two messages. -/
def cutScript : List (Attempt × List Json) :=
  [(.refused, []),
   (.connected [.data [123], .timeout, .osError], [.obj []]),
   (.connected [.data [123, 125], .data [10, 123], .data []], [.obj [], .obj []])]

theorem queue_of_run_cut :
    (run oneMessageJson (cutScript.map Prod.fst)).run [] =
      .ok () [connStatus false, connStatus true, connStatus false, connStatus true, .obj [],
        connStatus false] := by
  have hmessage : ∀ obj ∈ [Json.obj [], Json.obj []],
      (StreamItem.message obj).Admissible oneMessageJson := by
    intro obj hobj
    obtain rfl : obj = .obj [] := by simpa using hobj
    exact ⟨rfl, rfl, by decide⟩
  refine queue_of_run oneMessageJson cutScript [] (fun attempt hattempt recvs hrecvs => ?_)
    fun attempt hattempt => ?_
  · simp only [cutScript, List.mem_cons, List.not_mem_nil, or_false] at hattempt
    rcases hattempt with rfl | rfl | rfl
    · cases hrecvs
    · cases hrecvs
      exact ⟨fun obj hobj => hmessage obj (List.mem_cons_of_mem _ hobj), by decide⟩
    · cases hrecvs
      exact ⟨hmessage, by decide⟩
  · simp only [cutScript, List.dropLast_cons_cons, List.dropLast_singleton, List.mem_cons,
      List.not_mem_nil, or_false] at hattempt
    rcases hattempt with rfl | rfl <;> rfl

/-! ## Any bytes at all -/

/-- What a connection on which these bytes arrive should do, however they are cut: return
every message, decode every other line to `None` and leave the read loop by an exception
only when the socket raised it. -/
structure Survives (json : JsonModule) (stream : Bytes) : Prop where
  feeds : ∀ chunks : List Bytes, chunks.flatten = stream →
    (feedAll json chunks).run .fresh =
      .ok ((frames newline stream).filterMap (loaded json)) ⟨pending newline stream⟩
  undecodable : ∀ line ∈ frames newline stream, ∀ exception,
    decodeUtf8 line >>= json.loads = .error exception → decodeMessage json line = .ok .null
  loop : ∀ recvs queue, received recvs = stream →
    (readLoop json recvs .fresh).run queue =
      left (ending recvs) (queue ++ (frames newline stream).filterMap (loaded json))

/-- **When no bytes kill the reader.**  It survives a stream exactly when decoding a line
of it raises nothing but the two exceptions that `decode_message` catches. -/
theorem survives_iff (json : JsonModule) (stream : Bytes) :
    Survives json stream ↔ ∀ line ∈ frames newline stream, Caught json line := by
  constructor
  · intro h line hline exception hraises
    exact decodeMessage_eq_null hraises (h.undecodable line hline exception hraises)
  · intro h
    have hdecode : ∀ line ∈ frames newline stream, ∃ obj, decodeMessage json line = .ok obj :=
      fun line hline => exists_decodeMessage (h line hline)
    have hmessages : (frames newline stream).filterMap (messageOf json) =
        (frames newline stream).filterMap (loaded json) :=
      List.filterMap_congr fun line hline => messageOf_eq_loaded (h line hline)
    refine ⟨?_, ?_, ?_⟩
    · rintro chunks rfl
      rw [feedAll_fresh chunks hdecode, hmessages]
    · exact fun line hline exception hraises => decodeMessage_of_caught (h line hline) hraises
    · rintro recvs queue rfl
      have hpending : pending newline ([] : Bytes) = [] := pending_of_not_mem List.not_mem_nil
      have hloop := @run_readLoop json recvs [] queue
      rw [hpending, List.nil_append, hmessages] at hloop
      exact hloop hdecode

/-! ### A number with too many digits -/

/-- `json.loads` with the digit limit of integers, on an empty object and on digits. -/
def limitedJson : JsonModule where
  dumps _ := "\x7b\x7d"
  parse text :=
    if text = "\x7b\x7d" then .ok (.obj [])
    else if text.toList.all Char.isDigit then
      if text.toList.length ≤ 4300 then .ok (.int (text.toNat?.getD 0)) else .error .valueError
    else .error .jsonDecodeError

/-- The line of a number with that many digits. -/
def ones (count : Nat) : String :=
  String.ofList (List.replicate count '1')

theorem encodeUtf8_ones (count : Nat) : encodeUtf8 (ones count) = List.replicate count 49 := by
  unfold encodeUtf8 ones
  rw [String.toByteArray_ofList]
  induction count with
  | zero => rfl
  | succ count ih =>
      rw [List.replicate_succ, List.utf8Encode_cons, ByteArray.data_append, Array.toList_append,
        ih]
      rfl

theorem loads_ones {count : Nat} (h : 4300 < count) :
    decodeUtf8 (encodeUtf8 (ones count)) >>= limitedJson.loads = .error .valueError := by
  have hdigits : (ones count).toList = List.replicate count '1' := String.toList_ofList
  have hblank : ¬ isBlank (encodeUtf8 (ones count)) = true := by
    rw [encodeUtf8_ones]
    intro hblank
    have hone := List.all_eq_true.mp hblank 49 (List.mem_replicate.mpr ⟨by omega, rfl⟩)
    exact absurd hone (by decide)
  have hnumber : ones count ≠ "\x7b\x7d" := by
    intro hsame
    have hbrace : '\x7b' ∈ (ones count).toList := hsame ▸ (by decide)
    rw [hdigits] at hbrace
    exact absurd (List.mem_replicate.mp hbrace).2 (by decide)
  have hall : (ones count).toList.all Char.isDigit = true := by
    rw [hdigits, List.all_eq_true]
    intro char hchar
    rw [(List.mem_replicate.mp hchar).2]
    rfl
  have hlength : ¬ (ones count).toList.length ≤ 4300 := by
    rw [hdigits, List.length_replicate]
    omega
  rw [decodeUtf8_encodeUtf8, ok_bind, JsonModule.loads, if_neg hblank]
  exact (if_neg hnumber).trans ((if_pos hall).trans (if_neg hlength))

/-- A line of 4301 digits ends the reader. -/
theorem digits_kill_reader :
    ¬ ∀ (json : JsonModule) (stream : Bytes),
      (∀ text exception, json.parse text = .error exception →
        exception = .jsonDecodeError ∨ exception = .valueError ∨ exception = .recursionError) →
      Survives json stream := by
  intro hclaim
  have hsurvives := hclaim limitedJson (encodeUtf8 (ones 4301) ++ [newline]) (by
    intro text exception h
    unfold limitedJson at h
    dsimp only at h
    split at h
    · cases h
    · split at h
      · split at h
        · cases h
        · exact .inr (.inl (Except.error.inj h).symm)
      · exact .inl (Except.error.inj h).symm)
  have hline : newline ∉ encodeUtf8 (ones 4301) := by
    rw [encodeUtf8_ones]
    exact fun hmem => absurd (List.mem_replicate.mp hmem).2 (by decide)
  have hframes : encodeUtf8 (ones 4301) ∈ frames newline (encodeUtf8 (ones 4301) ++ [newline]) := by
    rw [frames_cut hline []]
    exact List.mem_cons_self
  have hcaught := (survives_iff limitedJson _).mp hsurvives _ hframes
  rcases hcaught .valueError (loads_ones (by omega)) with h | h <;> cases h

end NetClient
end Frontend
end SiliconOffice
