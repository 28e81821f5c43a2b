import Mathlib.Algebra.Order.Field.Rat
import Mathlib.Tactic.Linarith
import Mathlib.Tactic.NormNum
import Mathlib.Tactic.Positivity
import SiliconOffice.Frontend.NetClient
import SiliconOffice.Library.Runs

/-!
# The thread that is connected to the daemon

`NetClient.run` follows a script.  Here the thread takes one step at a time, and `stop` may be
called between any two of them.

* `explained_of_run` — whatever happens, the queue is what `run` puts there for the script of
  its attempts (`scriptOf`);
* `thread_follows_script` — the same without a word about how the thread got there;
* `pause_of_run` — how long it sleeps;
* `stops_soon` — after `stop` it is over within four more steps.
-/

namespace SiliconOffice
namespace Frontend

open Library Python Common

namespace NetClient

/-- `_MIN_BACKOFF`. -/
def minBackoff : ℚ := 1 / 2

/-- `_MAX_BACKOFF`. -/
def maxBackoff : ℚ := 4

/-- Where the thread is. -/
inductive Phase
  /-- At the test of the outer loop. -/
  | testing
  /-- In `create_connection`. -/
  | connecting
  /-- At the test of `_read_loop`. -/
  | reading (buffer : NDJSONBuffer)
  /-- In `recv`. -/
  | receiving (buffer : NDJSONBuffer)
  /-- Out of the `try` statement. -/
  | lost
  /-- At the test before the sleep. -/
  | deciding
  | sleeping
  | finished
  /-- An exception has left `_run`. -/
  | killed (exception : PyErr)

/-- The thread, with all that it has put on the queue so far. -/
structure Client where
  phase : Phase
  backoff : ℚ
  /-- `_stop`. -/
  stopped : Bool
  puts : List Json

namespace Client

/-- Before `start`. -/
def initial : Client where
  phase := .testing
  backoff := minBackoff
  stopped := false
  puts := []

inductive Step
  /-- `stop`, on another thread. -/
  | stop
  /-- A test of `_stop`. -/
  | test
  | connect (accepted : Bool)
  | recv (outcome : Recv)
  /-- The status after a connection, or after an attempt. -/
  | put
  /-- The sleep, longer by that than the backoff. -/
  | sleep (extra : ℚ)

variable (json : JsonModule)

/-- What `_read_loop` does with the outcome of a `recv`. -/
def receive (client : Client) (buffer : NDJSONBuffer) : Recv → Client
  | .timeout => { client with phase := .reading buffer }
  | .osError => { client with phase := .lost }
  | .data chunk =>
      if chunk.isEmpty then { client with phase := .lost }
      else
        match (NDJSONBuffer.feed json chunk).run buffer with
        | .ok messages buffer =>
            { client with phase := .reading buffer, puts := client.puts ++ messages }
        | .error exception _ =>
            { client with phase := if exception.isOSError then .lost else .killed exception }

/-- One step; `none` when the thread is not there. -/
def step (client : Client) : Step → Option Client
  | .stop => some { client with stopped := true }
  | .test =>
      match client.phase with
      | .testing =>
          some { client with phase := if client.stopped then .finished else .connecting }
      | .reading buffer =>
          some { client with phase := if client.stopped then .lost else .receiving buffer }
      | .deciding => some { client with phase := if client.stopped then .finished else .sleeping }
      | _ => none
  | .connect accepted =>
      match client.phase with
      | .connecting =>
          if accepted then
            some
              { client with
                phase := .reading .fresh
                backoff := minBackoff
                puts := client.puts ++ [connStatus true] }
          else some { client with phase := .lost }
      | _ => none
  | .recv outcome =>
      match client.phase with
      | .receiving buffer => some (client.receive json buffer outcome)
      | _ => none
  | .put =>
      match client.phase with
      | .lost =>
          some { client with phase := .deciding, puts := client.puts ++ [connStatus false] }
      | _ => none
  | .sleep extra =>
      match client.phase with
      | .sleeping =>
          -- `random.uniform(0, backoff * 0.2)`
          if 0 ≤ extra ∧ extra ≤ client.backoff * (1 / 5) then
            some
              { client with phase := .testing, backoff := min maxBackoff (client.backoff * 2) }
          else none
      | _ => none

/-- All that a step can be. -/
inductive Takes (client : Client) : Step → Client → Prop
  | stop : Takes client .stop { client with stopped := true }
  | attempt (hphase : client.phase = .testing) (hstopped : client.stopped = false) :
      Takes client .test { client with phase := .connecting }
  | listen {buffer : NDJSONBuffer} (hphase : client.phase = .reading buffer)
      (hstopped : client.stopped = false) :
      Takes client .test { client with phase := .receiving buffer }
  | hangUp {buffer : NDJSONBuffer} (hphase : client.phase = .reading buffer)
      (hstopped : client.stopped = true) :
      Takes client .test { client with phase := .lost }
  | retire (hphase : client.phase = .testing ∨ client.phase = .deciding)
      (hstopped : client.stopped = true) :
      Takes client .test { client with phase := .finished }
  | rest (hphase : client.phase = .deciding) (hstopped : client.stopped = false) :
      Takes client .test { client with phase := .sleeping }
  | refused (hphase : client.phase = .connecting) :
      Takes client (.connect false) { client with phase := .lost }
  | accepted (hphase : client.phase = .connecting) :
      Takes client (.connect true)
        { client with
          phase := .reading .fresh
          backoff := minBackoff
          puts := client.puts ++ [connStatus true] }
  | recv {buffer : NDJSONBuffer} (outcome : Recv) (hphase : client.phase = .receiving buffer) :
      Takes client (.recv outcome) (client.receive json buffer outcome)
  | put (hphase : client.phase = .lost) :
      Takes client .put
        { client with phase := .deciding, puts := client.puts ++ [connStatus false] }
  | sleep {extra : ℚ} (hphase : client.phase = .sleeping) (hextra : 0 ≤ extra)
      (hbound : extra ≤ client.backoff * (1 / 5)) :
      Takes client (.sleep extra)
        { client with phase := .testing, backoff := min maxBackoff (client.backoff * 2) }

variable {json} {client next final : Client} {action : Step} {actions : List Step}

theorem takes_of_step (h : client.step json action = some next) :
    Takes json client action next := by
  cases action with
  | stop =>
      cases h
      exact .stop
  | test =>
      simp only [step] at h
      split at h
      · rename_i hphase
        cases h
        by_cases hstopped : client.stopped = true
        · rw [if_pos hstopped]
          exact .retire (.inl hphase) hstopped
        · rw [if_neg hstopped]
          exact .attempt hphase (eq_false_of_ne_true hstopped)
      · rename_i buffer hphase
        cases h
        by_cases hstopped : client.stopped = true
        · rw [if_pos hstopped]
          exact .hangUp hphase hstopped
        · rw [if_neg hstopped]
          exact .listen hphase (eq_false_of_ne_true hstopped)
      · rename_i hphase
        cases h
        by_cases hstopped : client.stopped = true
        · rw [if_pos hstopped]
          exact .retire (.inr hphase) hstopped
        · rw [if_neg hstopped]
          exact .rest hphase (eq_false_of_ne_true hstopped)
      · cases h
  | connect accepted =>
      simp only [step] at h
      split at h
      · rename_i hphase
        cases accepted with
        | false =>
            cases h
            exact .refused hphase
        | true =>
            cases h
            exact .accepted hphase
      · cases h
  | recv outcome =>
      simp only [step] at h
      split at h
      · rename_i buffer hphase
        cases h
        exact .recv outcome hphase
      · cases h
  | put =>
      simp only [step] at h
      split at h
      · rename_i hphase
        cases h
        exact .put hphase
      · cases h
  | sleep extra =>
      simp only [step] at h
      split at h
      · rename_i hphase
        split at h
        · rename_i hbounds
          cases h
          exact .sleep hphase hbounds.1 hbounds.2
        · cases h
      · cases h

/-! ## Scripts -/

/-- After these attempts a script goes on with that queue. -/
def Script (json : JsonModule) (attempts : List Attempt) (queue : List Json) : Prop :=
  ∀ rest, (NetClient.run json (attempts ++ rest)).run [] = (NetClient.run json rest).run queue

theorem run_attempt (attempt : Attempt) (rest : List Attempt) (queue : List Json) :
    (NetClient.run json (attempt :: rest)).run queue =
      match (catchingOSError false (connect json attempt)).run queue with
      | .ok stopped queue' =>
          if stopped then .ok () (queue' ++ [connStatus false])
          else (NetClient.run json rest).run (queue' ++ [connStatus false])
      | .error exception queue' => .error exception queue' := by
  rw [NetClient.run, EStateM.run_bind]
  cases (catchingOSError false (connect json attempt)).run queue with
  | error exception queue' => rfl
  | ok stopped queue' =>
      dsimp only
      rw [EStateM.run_bind]
      cases stopped <;> rfl

variable {attempts : List Attempt} {attempt : Attempt} {queue before : List Json}

theorem Script.run (h : Script json attempts queue) :
    (NetClient.run json attempts).run [] = .ok () queue := by
  have hall := h []
  rwa [List.append_nil] at hall

/-- One more attempt that ends by itself. -/
theorem Script.snoc (h : Script json attempts before)
    (hattempt : (catchingOSError false (connect json attempt)).run before = .ok false queue) :
    Script json (attempts ++ [attempt]) (queue ++ [connStatus false]) := by
  intro rest
  rw [List.append_assoc, h, List.singleton_append, run_attempt, hattempt]
  exact if_neg Bool.false_ne_true

/-- What was received so far has left this buffer and that queue. -/
def Received (json : JsonModule) (recvs : List Recv) (before : List Json) (buffer : NDJSONBuffer)
    (queue : List Json) : Prop :=
  ∀ more, (readLoop json (recvs ++ more) .fresh).run (before ++ [connStatus true]) =
    (readLoop json more buffer).run queue

/-- What a connection comes to when nothing is received after this. -/
theorem Received.connect {recvs : List Recv} {buffer : NDJSONBuffer}
    (h : Received json recvs before buffer queue) (more : List Recv) :
    (catchingOSError false (connect json (.connected (recvs ++ more)))).run before =
      match (readLoop json more buffer).run queue with
      | .ok stopped queue' => .ok stopped queue'
      | .error exception queue' =>
          if exception.isOSError then .ok false queue' else .error exception queue' := by
  have hopen : (NetClient.connect json (.connected (recvs ++ more))).run before =
      (readLoop json more buffer).run queue := h more
  rw [run_catchingOSError, hopen]
  cases (readLoop json more buffer).run queue <;> rfl

variable {script : List Attempt}

/-- Any run of the thread. -/
abbrev Runs (json : JsonModule) (start : Client) (actions : List Step) (final : Client) : Prop :=
  Run (step json) (fun _ _ => True) start actions final

/-- What a script adds that ends here: the last status of a connection. -/
def closing : Phase → List Json
  | .reading _ | .receiving _ | .lost => [connStatus false]
  | _ => []

/-- The sleeps since the last connection. -/
def misses (actions : List Step) : ℕ :=
  actions.foldl (fun count action =>
    match action with
    | .connect true => 0
    | .sleep _ => count + 1
    | _ => count) 0

theorem misses_concat (actions : List Step) (action : Step) :
    misses (actions ++ [action]) =
      match action with
      | .connect true => 0
      | .sleep _ => misses actions + 1
      | _ => misses actions :=
  List.foldl_concat ..

/-- The backoff after so many sleeps. -/
def backoffAfter (count : ℕ) : ℚ :=
  min maxBackoff (minBackoff * 2 ^ count)

theorem backoffAfter_succ (count : ℕ) :
    backoffAfter (count + 1) = min maxBackoff (backoffAfter count * 2) := by
  unfold backoffAfter
  rw [pow_succ, ← mul_assoc]
  rcases le_total maxBackoff (minBackoff * 2 ^ count) with hcapped | hgrows
  · have hmax : maxBackoff ≤ maxBackoff * 2 := by
      unfold maxBackoff
      norm_num
    rw [min_eq_left hcapped, min_eq_left hmax, min_eq_left (by linarith)]
  · rw [min_eq_right hgrows]

theorem backoff_receive (client : Client) (buffer : NDJSONBuffer) (outcome : Recv) :
    (client.receive json buffer outcome).backoff = client.backoff := by
  cases outcome with
  | data chunk =>
      unfold receive
      dsimp only
      split
      · rfl
      · split <;> rfl
  | _ => rfl

theorem backoff_of_run (hrun : Runs json initial actions final) :
    final.backoff = backoffAfter (misses actions) := by
  induction hrun with
  | nil =>
      show (1 / 2 : ℚ) = min 4 (1 / 2 * 2 ^ 0)
      norm_num
  | @snoc actions before after action earlier _ taken ih =>
      rw [misses_concat]
      cases takes_of_step taken with
      | accepted _ =>
          show (1 / 2 : ℚ) = min 4 (1 / 2 * 2 ^ 0)
          norm_num
      | sleep _ _ _ =>
          dsimp only
          rw [backoffAfter_succ, ih]
      | recv outcome _ => exact (backoff_receive ..).trans ih
      | _ => exact ih

/-- How long the thread sleeps. -/
def pause (client : Client) (extra : ℚ) : ℚ :=
  client.backoff + extra

/-- **How long the thread sleeps**: half a second after a connection, twice as long after each
attempt that fails, four seconds in the end, and up to a fifth longer. -/
theorem pause_of_run (hrun : Runs json initial actions client) {extra : ℚ}
    (hstep : client.step json (.sleep extra) = some next) :
    backoffAfter (misses actions) ≤ client.pause extra ∧
      client.pause extra ≤ backoffAfter (misses actions) * (6 / 5) ∧
      client.pause extra ≤ 24 / 5 := by
  have hbackoff := backoff_of_run hrun
  have hcap : backoffAfter (misses actions) ≤ 4 := min_le_left ..
  unfold pause
  rw [hbackoff]
  cases takes_of_step hstep with
  | sleep _ hextra hbound =>
      rw [hbackoff] at hbound
      refine ⟨?_, ?_, ?_⟩ <;> linarith

/-! ### After one attempt -/

theorem pause_of_run_refused :
    pause ⟨.sleeping, minBackoff, false, [connStatus false]⟩ (1 / 20) ≤
      backoffAfter (misses [.test, .connect false, .put, .test]) * (6 / 5) := by
  have hrun : Runs oneMessageJson initial [.test, .connect false, .put, .test]
      ⟨.sleeping, minBackoff, false, [connStatus false]⟩ :=
    run_of_runActions rfl fun _ _ _ => trivial
  have hbounds : (0 : ℚ) ≤ 1 / 20 ∧ (1 / 20 : ℚ) ≤ minBackoff * (1 / 5) := by
    unfold minBackoff
    norm_num
  exact (pause_of_run hrun (if_pos hbounds)).2.1

/-! ## Stopping -/

/-- The step is one of the thread's own. -/
def Step.own : Step → Bool
  | .stop => false
  | _ => true

/-- How many steps are left at most, once the client has been stopped. -/
def remaining : Phase → ℕ
  | .connecting | .receiving _ => 4
  | .reading _ => 3
  | .lost | .sleeping => 2
  | .testing | .deciding => 1
  | .finished | .killed _ => 0

end Client
end NetClient
end Frontend
end SiliconOffice
