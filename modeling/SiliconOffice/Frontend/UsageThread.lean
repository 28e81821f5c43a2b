import SiliconOffice.Frontend.UsageCache
import SiliconOffice.Library.LockedRecord

/-!
# The thread that keeps the usage

The thread of `UsageTracker` refreshes, and stores what it found in five assignments under
`_lock`; the render loop reads four of the fields under the same lock, one after the other.
`Tracking.step` has each of these as a step of its own, with `stop` and changing files between
any two of them.

* `snapshots_linearize` — all this is as if a refresh published at once and a snapshot were taken
  at once;
* `Orderly.goes_on` — the thread or the holder of the lock can always take a step;
* `tracker_ends` — what the thread still does after `stop`.
-/

namespace SiliconOffice
namespace Frontend

open Library Python Common

/-- One assignment or one read of the totals, in the order of the code. -/
def copyTotal : ℕ → UsageSnapshot → UsageSnapshot → UsageSnapshot
  | 0, source, totals => { totals with sessionCost := source.sessionCost }
  | 1, source, totals => { totals with sessionTokens := source.sessionTokens }
  | 2, source, totals => { totals with weekCost := source.weekCost }
  | _, source, totals => { totals with weekTokens := source.weekTokens }

/-- One assignment of `_refresh` under the lock. -/
def assignField : ℕ → UsageTracker → UsageTracker → UsageTracker
  | 0, source, tracker => { tracker with fileCache := source.fileCache }
  | index + 1, source, tracker =>
      { tracker with published := copyTotal index source.published tracker.published }

/-- What `_lock` protects. -/
def trackerFields : Fields UsageTracker UsageSnapshot where
  writes := 5
  write := assignField
  reads := 4
  read index source totals := copyTotal index source.published totals
  view := UsageTracker.published
  written _ _ := rfl
  copied _ _ := rfl

/-- Where the thread is. -/
inductive TrackerPhase
  /-- At the test of the loop of `_run`. -/
  | testing
  /-- At the beginning of `_refresh`. -/
  | calling
  | refreshing (refresh : Refreshing)
  /-- Under the lock. -/
  | publishing
  /-- In `_stop.wait`. -/
  | waiting
  | finished

/-- What an exception of `_refresh` leaves, as `_run` swallows it. -/
def TrackerPhase.ofActivity : Activity → TrackerPhase
  | .refreshing refresh => refreshing refresh
  | _ => waiting

/-- The loop of `_refresh` is over. -/
def Refreshing.done (refresh : Refreshing) : Bool :=
  refresh.scanning.isNone && refresh.listing.isEmpty

/-- The tracker, its thread and the render loop. -/
structure Tracking where
  disk : String → Option File
  tracker : Locked UsageTracker UsageSnapshot
  phase : TrackerPhase
  /-- `_stop`. -/
  stopped : Bool
  /-- What `snapshot` has returned, the oldest first. -/
  returned : List UsageSnapshot

namespace Tracking

/-- A tracker that was just made. -/
def initial : Tracking where
  disk _ := none
  tracker := .fresh {}
  phase := .testing
  stopped := false
  returned := []

inductive Step
  /-- A transcript is created, grows or is deleted. -/
  | world (action : Usage.Action)
  /-- `stop`. -/
  | stop
  /-- The test of the loop of `_run`. -/
  | test
  /-- `_refresh` finds no projects directory. -/
  | absent
  /-- It finds one and reads the clock. -/
  | begin (now : ℚ) (listing : List String)
  | advance
  /-- `open` or the reading of a line fails with an `OSError`. -/
  | fail
  /-- It takes the lock, assigns a field, gives the lock back. -/
  | acquire
  | assign
  | release
  /-- `_stop.wait` returns. -/
  | wake
  /-- `snapshot` takes the lock, reads a field, gives the lock back and returns. -/
  | enter
  | copy
  | leave

end Tracking

/-- The action has nothing to do with the tracker. -/
def Usage.Action.outside : Usage.Action → Bool
  | .create .. | .append .. | .delete .. => true
  | _ => false

namespace Tracking

variable (reader : UsageReader)

/-- What a refresh of `Usage` sees. -/
def seen (tracking : Tracking) (activity : Activity) : Usage.State :=
  ⟨tracking.disk, tracking.tracker.value, activity⟩

/-- One step; `none` when nobody is there, or the lock is held. -/
def step (tracking : Tracking) : Step → Option Tracking
  | .world action =>
      if action.outside then
        (Usage.step reader (tracking.seen .waiting) action).map fun state =>
          { tracking with disk := state.disk }
      else none
  | .stop => some { tracking with stopped := true }
  | .test =>
      match tracking.phase with
      | .testing =>
          some { tracking with phase := if tracking.stopped then .finished else .calling }
      | _ => none
  | .absent =>
      match tracking.phase with
      | .calling => some { tracking with phase := .waiting }
      | _ => none
  | .begin now listing =>
      match tracking.phase with
      | .calling =>
          some { tracking with phase := .refreshing { cutoffs := reader.cutoffs now, listing } }
      | _ => none
  | .advance =>
      match tracking.phase with
      | .refreshing refresh =>
          if refresh.done then none
          else
            (Usage.advance reader (tracking.seen (.refreshing refresh))).map fun state =>
              { tracking with phase := .ofActivity state.activity }
      | _ => none
  | .fail =>
      match tracking.phase with
      | .refreshing refresh =>
          (Usage.step reader (tracking.seen (.refreshing refresh)) .fail).map fun state =>
            { tracking with phase := .ofActivity state.activity }
      | _ => none
  | .acquire =>
      match tracking.phase with
      | .refreshing refresh =>
          if refresh.done then
            (tracking.tracker.beginWrite ⟨refresh.freshCache, refresh.totals⟩).map fun tracker =>
              { tracking with tracker, phase := .publishing }
          else none
      | _ => none
  | .assign =>
      (tracking.tracker.writeNext trackerFields).map fun tracker => { tracking with tracker }
  | .release =>
      (tracking.tracker.endWrite trackerFields).map fun tracker =>
        { tracking with tracker, phase := .waiting }
  | .wake =>
      match tracking.phase with
      | .waiting => some { tracking with phase := .testing }
      | _ => none
  | .enter => (tracking.tracker.beginRead {}).map fun tracker => { tracking with tracker }
  | .copy =>
      (tracking.tracker.readNext trackerFields).map fun tracker => { tracking with tracker }
  | .leave =>
      (tracking.tracker.endRead trackerFields).map fun (snapshot, tracker) =>
        { tracking with tracker, returned := tracking.returned ++ [snapshot] }

end Tracking

/-! ## All at once -/

/-- A tracker that publishes at once, and what snapshots that are taken at once return. -/
structure Served where
  state : Usage.State
  returned : List UsageSnapshot

namespace Served

def initial : Served := ⟨Usage.initial, []⟩

inductive Action
  | usage (action : Usage.Action)
  | snapshot

def step (reader : UsageReader) (served : Served) : Action → Option Served
  | .usage action =>
      (Usage.step reader served.state action).map fun state => { served with state }
  | .snapshot =>
      some { served with returned := served.returned ++ [served.state.tracker.published] }

end Served

/-- A refresh publishes when it takes the lock; a snapshot is taken when it gives it back. -/
def Tracking.Step.atomic : Tracking.Step → List Served.Action
  | .world action => [.usage action]
  | .begin now listing => [.usage (.begin now listing)]
  | .advance => [.usage .advance]
  | .fail => [.usage .fail]
  | .acquire => [.usage .advance]
  | .leave => [.snapshot]
  | _ => []

def TrackerPhase.refresh? : TrackerPhase → Option Refreshing
  | refreshing refresh => some refresh
  | _ => none

def TrackerPhase.isPublishing : TrackerPhase → Bool
  | publishing => true
  | _ => false

def Activity.refresh? : Activity → Option Refreshing
  | refreshing refresh => some refresh
  | _ => none

theorem TrackerPhase.refresh?_ofActivity (activity : Activity) :
    (ofActivity activity).refresh? = activity.refresh? := by
  cases activity <;> rfl

theorem TrackerPhase.refresh?_of_isPublishing {phase : TrackerPhase}
    (h : phase.isPublishing = true) : phase.refresh? = none := by
  cases phase with
  | publishing => rfl
  | _ => cases h

theorem Activity.eq_of_refresh? {activity : Activity} {refresh : Refreshing}
    (h : activity.refresh? = some refresh) : activity = .refreshing refresh := by
  cases activity with
  | refreshing other =>
      cases h
      rfl
  | waiting => cases h
  | raised exception => cases h

/-! ## Steps of a refresh -/

namespace Usage

variable {reader : UsageReader} {state before after : State} {refresh : Refreshing}

/-- What happens outside depends on the disk and changes the disk. -/
theorem step_outside {action : Action} (houtside : action.outside = true)
    (hdisk : state.disk = before.disk) (htaken : step reader before action = some after) :
    step reader state action = some { state with disk := after.disk } := by
  cases action with
  | create path lines size mtime =>
      simp only [step, hdisk] at htaken ⊢
      split at htaken
      · rename_i hnew
        cases htaken
        simp only [put, hdisk, if_pos hnew]
      · cases htaken
  | append path lines size mtime =>
      simp only [step, hdisk] at htaken ⊢
      obtain ⟨file, hfile, hgrows⟩ := Option.bind_eq_some_iff.mp htaken
      rw [hfile, Option.bind_some]
      split at hgrows
      · rename_i hlarger
        cases hgrows
        simp only [put, hdisk, if_pos hlarger]
      · cases hgrows
  | delete path =>
      simp only [step, hdisk] at htaken ⊢
      obtain ⟨file, hfile, rfl⟩ := Option.map_eq_some_iff.mp htaken
      simp only [hfile, Option.map_some, put, hdisk]
  | begin now listing => cases houtside
  | advance => cases houtside
  | fail => cases houtside

/-- Nothing is published before the loop is over. -/
theorem tracker_advance (hactivity : before.activity = .refreshing refresh)
    (hmore : refresh.done = false) (htaken : advance reader before = some after) :
    after.tracker = before.tracker := by
  obtain ⟨disk, tracker, activity⟩ := before
  cases hactivity
  obtain ⟨cutoffs, listing, freshCache, totals, scanning⟩ := refresh
  cases scanning with
  | some scanning =>
      unfold advance at htaken
      cases htaken
      unfold State.after
      split <;> rfl
  | none =>
      cases listing with
      | nil => cases hmore
      | cons path rest =>
          unfold advance at htaken
          cases htaken
          rfl

/-- Then everything is. -/
theorem advance_of_done (hactivity : before.activity = .refreshing refresh)
    (hdone : refresh.done = true) : advance reader before =
      some { before with
        tracker := ⟨refresh.freshCache, refresh.totals⟩
        activity := .waiting } := by
  obtain ⟨disk, tracker, activity⟩ := before
  cases hactivity
  obtain ⟨cutoffs, listing, freshCache, totals, scanning⟩ := refresh
  cases scanning with
  | some scanning => cases hdone
  | none =>
      cases listing with
      | nil => rfl
      | cons path rest => cases hdone

theorem isSome_advance (hactivity : before.activity = .refreshing refresh) :
    (advance reader before).isSome = true := by
  unfold advance
  rw [hactivity]
  dsimp only
  split <;> rfl

theorem fail_unchanged (htaken : step reader before .fail = some after) :
    after.disk = before.disk ∧ after.tracker = before.tracker := by
  simp only [step] at htaken
  split at htaken
  · obtain ⟨scanning, -, rfl⟩ := Option.map_eq_some_iff.mp htaken
    exact ⟨rfl, rfl⟩
  · cases htaken

end Usage

namespace Tracking

variable {reader : UsageReader} {tracking before after final : Tracking} {served : Served}
  {taken : Step} {steps : List Step}

/-- All that a step can be. -/
inductive Takes (reader : UsageReader) (tracking : Tracking) : Step → Tracking → Prop
  | world {action : Usage.Action} {state : Usage.State} (houtside : action.outside = true)
      (htaken : Usage.step reader (tracking.seen .waiting) action = some state) :
      Takes reader tracking (.world action) { tracking with disk := state.disk }
  | stop : Takes reader tracking .stop { tracking with stopped := true }
  | call (hphase : tracking.phase = .testing) (hstopped : tracking.stopped = false) :
      Takes reader tracking .test { tracking with phase := .calling }
  | finish (hphase : tracking.phase = .testing) (hstopped : tracking.stopped = true) :
      Takes reader tracking .test { tracking with phase := .finished }
  | absent (hphase : tracking.phase = .calling) :
      Takes reader tracking .absent { tracking with phase := .waiting }
  | begin {now : ℚ} {listing : List String} (hphase : tracking.phase = .calling) :
      Takes reader tracking (.begin now listing)
        { tracking with phase := .refreshing { cutoffs := reader.cutoffs now, listing } }
  | advance {refresh : Refreshing} {state : Usage.State}
      (hphase : tracking.phase = .refreshing refresh) (hmore : refresh.done = false)
      (htaken : Usage.advance reader (tracking.seen (.refreshing refresh)) = some state) :
      Takes reader tracking .advance { tracking with phase := .ofActivity state.activity }
  | fail {refresh : Refreshing} {state : Usage.State}
      (hphase : tracking.phase = .refreshing refresh)
      (htaken : Usage.step reader (tracking.seen (.refreshing refresh)) .fail = some state) :
      Takes reader tracking .fail { tracking with phase := .ofActivity state.activity }
  | acquire {refresh : Refreshing} {tracker : Locked UsageTracker UsageSnapshot}
      (hphase : tracking.phase = .refreshing refresh) (hdone : refresh.done = true)
      (hlocked : tracking.tracker.beginWrite ⟨refresh.freshCache, refresh.totals⟩ =
        some tracker) :
      Takes reader tracking .acquire { tracking with tracker, phase := .publishing }
  | assign {tracker : Locked UsageTracker UsageSnapshot}
      (hlocked : tracking.tracker.writeNext trackerFields = some tracker) :
      Takes reader tracking .assign { tracking with tracker }
  | release {tracker : Locked UsageTracker UsageSnapshot}
      (hlocked : tracking.tracker.endWrite trackerFields = some tracker) :
      Takes reader tracking .release { tracking with tracker, phase := .waiting }
  | wake (hphase : tracking.phase = .waiting) :
      Takes reader tracking .wake { tracking with phase := .testing }
  | enter {tracker : Locked UsageTracker UsageSnapshot}
      (hlocked : tracking.tracker.beginRead {} = some tracker) :
      Takes reader tracking .enter { tracking with tracker }
  | copy {tracker : Locked UsageTracker UsageSnapshot}
      (hlocked : tracking.tracker.readNext trackerFields = some tracker) :
      Takes reader tracking .copy { tracking with tracker }
  | leave {tracker : Locked UsageTracker UsageSnapshot} {snapshot : UsageSnapshot}
      (hlocked : tracking.tracker.endRead trackerFields = some (snapshot, tracker)) :
      Takes reader tracking .leave
        { tracking with tracker, returned := tracking.returned ++ [snapshot] }

theorem takes_of_step (h : tracking.step reader taken = some after) :
    Takes reader tracking taken after := by
  cases taken with
  | world action =>
      simp only [step] at h
      split at h
      · obtain ⟨state, htaken, rfl⟩ := Option.map_eq_some_iff.mp h
        exact .world ‹_› htaken
      · cases h
  | stop =>
      cases h
      exact .stop
  | test =>
      simp only [step] at h
      split at h
      · rename_i hphase
        cases h
        cases hstopped : tracking.stopped with
        | false =>
            rw [if_neg Bool.false_ne_true, ← hstopped]
            exact .call hphase hstopped
        | true =>
            rw [if_pos rfl, ← hstopped]
            exact .finish hphase hstopped
      · cases h
  | absent =>
      simp only [step] at h
      split at h
      · cases h
        exact .absent ‹_›
      · cases h
  | begin now listing =>
      simp only [step] at h
      split at h
      · cases h
        exact .begin ‹_›
      · cases h
  | advance =>
      simp only [step] at h
      split at h
      · split at h
        · cases h
        · rename_i hphase hmore
          obtain ⟨state, htaken, rfl⟩ := Option.map_eq_some_iff.mp h
          exact .advance hphase (eq_false_of_ne_true hmore) htaken
      · cases h
  | fail =>
      simp only [step] at h
      split at h
      · obtain ⟨state, htaken, rfl⟩ := Option.map_eq_some_iff.mp h
        exact .fail ‹_› htaken
      · cases h
  | acquire =>
      simp only [step] at h
      split at h
      · split at h
        · rename_i hphase hdone
          obtain ⟨tracker, hlocked, rfl⟩ := Option.map_eq_some_iff.mp h
          exact .acquire hphase hdone hlocked
        · cases h
      · cases h
  | assign =>
      obtain ⟨tracker, hlocked, rfl⟩ := Option.map_eq_some_iff.mp h
      exact .assign hlocked
  | release =>
      obtain ⟨tracker, hlocked, rfl⟩ := Option.map_eq_some_iff.mp h
      exact .release hlocked
  | wake =>
      simp only [step] at h
      split at h
      · cases h
        exact .wake ‹_›
      · cases h
  | enter =>
      obtain ⟨tracker, hlocked, rfl⟩ := Option.map_eq_some_iff.mp h
      exact .enter hlocked
  | copy =>
      obtain ⟨tracker, hlocked, rfl⟩ := Option.map_eq_some_iff.mp h
      exact .copy hlocked
  | leave =>
      obtain ⟨⟨snapshot, tracker⟩, hlocked, rfl⟩ := Option.map_eq_some_iff.mp h
      exact .leave hlocked

/-! ## One step -/

/-- The lock is held by those who are where it is held, and the record behind it is tidy. -/
structure Orderly (tracking : Tracking) : Prop where
  tidy : tracking.tracker.Tidy trackerFields
  writing : tracking.tracker.holder.isWriting = tracking.phase.isPublishing

theorem orderly_initial : Orderly initial where
  tidy := Locked.tidy_fresh _
  writing := rfl

theorem isPublishing_ofActivity (activity : Activity) :
    (TrackerPhase.ofActivity activity).isPublishing = false := by
  cases activity <;> rfl

/-- A refresh does not hold the lock. -/
theorem Orderly.stands_of_refreshing (h : Orderly tracking) {refresh : Refreshing}
    (hphase : tracking.phase = .refreshing refresh) :
    tracking.tracker.stands = tracking.tracker.value := by
  apply Locked.stands_of_not_writing
  rw [h.writing, hphase]
  rfl

theorem orderly_step (h : Orderly before) (hstep : before.step reader taken = some after) :
    Orderly after := by
  obtain ⟨htidy, hwriting⟩ := h
  cases takes_of_step hstep with
  | world _ _ => exact ⟨htidy, hwriting⟩
  | stop => exact ⟨htidy, hwriting⟩
  | call hphase _ => exact ⟨htidy, hwriting.trans (by rw [hphase]; rfl)⟩
  | finish hphase _ => exact ⟨htidy, hwriting.trans (by rw [hphase]; rfl)⟩
  | absent hphase => exact ⟨htidy, hwriting.trans (by rw [hphase]; rfl)⟩
  | begin hphase => exact ⟨htidy, hwriting.trans (by rw [hphase]; rfl)⟩
  | advance hphase _ _ =>
      refine ⟨htidy, hwriting.trans ?_⟩
      rw [hphase, isPublishing_ofActivity]
      rfl
  | fail hphase _ =>
      refine ⟨htidy, hwriting.trans ?_⟩
      rw [hphase, isPublishing_ofActivity]
      rfl
  | acquire _ _ hlocked =>
      obtain ⟨hnext, -, hwrites⟩ := Locked.Tidy.beginWrite hlocked
      exact ⟨hnext, hwrites⟩
  | assign hlocked =>
      have hnext := htidy.writeNext hlocked
      exact ⟨hnext.tidy, hnext.writing.trans hwriting⟩
  | release hlocked =>
      obtain ⟨-, hnext, -, hwrites⟩ := htidy.endWrite hlocked
      exact ⟨hnext, hwrites⟩
  | wake hphase => exact ⟨htidy, hwriting.trans (by rw [hphase]; rfl)⟩
  | enter hlocked =>
      have hnext := @Locked.Tidy.beginRead _ _ trackerFields _ _ _ hlocked
      exact ⟨hnext.tidy, hnext.writing.trans hwriting⟩
  | copy hlocked =>
      have hnext := htidy.readNext hlocked
      exact ⟨hnext.tidy, hnext.writing.trans hwriting⟩
  | leave hlocked =>
      have hnext := (htidy.endRead hlocked).2
      exact ⟨hnext.tidy, hnext.writing.trans hwriting⟩

/-- The tracker that does everything at once is at the same point. -/
structure Refines (tracking : Tracking) (served : Served) : Prop where
  disk : served.state.disk = tracking.disk
  tracker : served.state.tracker = tracking.tracker.stands
  activity : served.state.activity.refresh? = tracking.phase.refresh?
  returned : served.returned = tracking.returned

theorem refines_initial : Refines initial .initial where
  disk := rfl
  tracker := rfl
  activity := rfl
  returned := rfl

/-- In a refresh both see the same. -/
theorem Refines.seen (h : Refines before served) (horderly : Orderly before)
    {refresh : Refreshing} (hphase : before.phase = .refreshing refresh) :
    served.state = before.seen (.refreshing refresh) := by
  obtain ⟨⟨disk, tracker, activity⟩, returned⟩ := served
  obtain ⟨hdisk, htracker, hactivity, -⟩ := h
  rw [horderly.stands_of_refreshing hphase] at htracker
  rw [hphase] at hactivity
  obtain rfl := Activity.eq_of_refresh? hactivity
  cases hdisk
  cases htracker
  rfl

/-- What a guard says of the tracker that does everything at once. -/
def Permits (allowed : Usage.Action → Prop) (_ : Served) : Served.Action → Prop
  | .usage action => allowed action
  | .snapshot => True

variable {allowed : Usage.Action → Prop}

theorem run_usage {action : Usage.Action} {state : Usage.State} (hallowed : allowed action)
    (htaken : Usage.step reader served.state action = some state) :
    Run (Served.step reader) (Permits allowed) served [.usage action] { served with state } := by
  refine .snoc .nil hallowed ?_
  show (Usage.step reader served.state action).map _ = _
  rw [htaken]
  rfl

/-- **Each step is what it stands for**, and a step that stands for nothing changes nothing. -/
theorem refines_step (horderly : Orderly before) (h : Refines before served)
    (hallowed : ∀ action, .usage action ∈ taken.atomic → allowed action)
    (hstep : before.step reader taken = some after) :
    ∃ served', Run (Served.step reader) (Permits allowed) served taken.atomic served' ∧
      Refines after served' := by
  have ⟨hdisk, htracker, hactivity, hreturned⟩ := h
  cases takes_of_step hstep with
  | @world action state houtside htaken =>
      have hserved := Usage.step_outside houtside (hdisk : _ = (before.seen .waiting).disk) htaken
      exact ⟨_, run_usage (hallowed _ (List.mem_singleton_self _)) hserved, rfl, htracker,
        hactivity, hreturned⟩
  | stop => exact ⟨served, .nil, hdisk, htracker, hactivity, hreturned⟩
  | call hphase _ =>
      exact ⟨served, .nil, hdisk, htracker, hactivity.trans (by rw [hphase]; rfl), hreturned⟩
  | finish hphase _ =>
      exact ⟨served, .nil, hdisk, htracker, hactivity.trans (by rw [hphase]; rfl), hreturned⟩
  | absent hphase =>
      exact ⟨served, .nil, hdisk, htracker, hactivity.trans (by rw [hphase]; rfl), hreturned⟩
  | @begin now listing hphase =>
      rw [hphase] at hactivity
      have hbegins : Usage.step reader served.state (.begin now listing) =
          some (served.state.during { cutoffs := reader.cutoffs now, listing }) := by
        simp only [Usage.step]
        split
        · rename_i refresh hrefreshing
          rw [hrefreshing] at hactivity
          cases hactivity
        · rfl
      exact ⟨_, run_usage (hallowed _ (List.mem_singleton_self _)) hbegins, hdisk, htracker, rfl,
        hreturned⟩
  | @advance refresh state hphase hmore htaken =>
      have hadvances : Usage.step reader served.state .advance = some state := by
        rw [h.seen horderly hphase]
        exact htaken
      refine ⟨_, run_usage (hallowed _ (List.mem_singleton_self _)) hadvances,
        Usage.disk_advance htaken, ?_, (TrackerPhase.refresh?_ofActivity _).symm, hreturned⟩
      rw [horderly.stands_of_refreshing hphase]
      exact Usage.tracker_advance rfl hmore htaken
  | @fail refresh state hphase htaken =>
      obtain ⟨hsameDisk, hsameTracker⟩ := Usage.fail_unchanged htaken
      have hfails : Usage.step reader served.state .fail = some state := by
        rw [h.seen horderly hphase]
        exact htaken
      refine ⟨_, run_usage (hallowed _ (List.mem_singleton_self _)) hfails, hsameDisk, ?_,
        (TrackerPhase.refresh?_ofActivity _).symm, hreturned⟩
      rw [horderly.stands_of_refreshing hphase]
      exact hsameTracker
  | @acquire refresh tracker hphase hdone hlocked =>
      obtain ⟨-, hstands, -⟩ := @Locked.Tidy.beginWrite _ _ trackerFields _ _ _ hlocked
      have hpublishes := @Usage.advance_of_done reader served.state refresh
        (by rw [h.seen horderly hphase]; rfl) hdone
      exact ⟨_, run_usage (hallowed _ (List.mem_singleton_self _)) hpublishes, hdisk, hstands.symm,
        rfl, hreturned⟩
  | assign hlocked =>
      have hnext := horderly.tidy.writeNext hlocked
      exact ⟨served, .nil, hdisk, htracker.trans hnext.stands.symm, hactivity, hreturned⟩
  | release hlocked =>
      obtain ⟨hwrites, -, hstands, -⟩ := horderly.tidy.endWrite hlocked
      rw [horderly.writing] at hwrites
      exact ⟨served, .nil, hdisk, htracker.trans hstands.symm,
        hactivity.trans (TrackerPhase.refresh?_of_isPublishing hwrites), hreturned⟩
  | wake hphase =>
      exact ⟨served, .nil, hdisk, htracker, hactivity.trans (by rw [hphase]; rfl), hreturned⟩
  | enter hlocked =>
      have hnext := @Locked.Tidy.beginRead _ _ trackerFields _ _ _ hlocked
      exact ⟨served, .nil, hdisk, htracker.trans hnext.stands.symm, hactivity, hreturned⟩
  | copy hlocked =>
      have hnext := horderly.tidy.readNext hlocked
      exact ⟨served, .nil, hdisk, htracker.trans hnext.stands.symm, hactivity, hreturned⟩
  | @leave tracker snapshot hlocked =>
      obtain ⟨hsnapshot, hnext⟩ := horderly.tidy.endRead hlocked
      refine ⟨_, .snoc .nil trivial rfl, hdisk, htracker.trans hnext.stands.symm, hactivity, ?_⟩
      show served.returned ++ [served.state.tracker.published] = before.returned ++ [snapshot]
      rw [hreturned, htracker, hsnapshot]
      rfl

/-! ## Runs -/

/-- Any run in which only such things happen to the files and in the refreshes. -/
abbrev Runs (reader : UsageReader) (allowed : Usage.Action → Prop) (start : Tracking)
    (steps : List Step) (final : Tracking) : Prop :=
  Run (step reader) (fun _ taken => ∀ action, .usage action ∈ taken.atomic → allowed action)
    start steps final

theorem orderly_of_run (hrun : Runs reader allowed initial steps final) : Orderly final :=
  hrun.invariant orderly_initial fun _ _ _ h _ hstep => orderly_step h hstep

/-- **Refreshes and snapshots are atomic.**  However the thread, the render loop and those who
write transcripts take turns, and wherever `stop` comes in between: every snapshot is what it
would be if each refresh published at once when it takes the lock, and each snapshot were taken
at once when it gives the lock back. -/
theorem snapshots_linearize (hrun : Runs reader allowed initial steps final) :
    ∃ served, Run (Served.step reader) (Permits allowed) .initial (steps.flatMap Step.atomic)
        served ∧
      served.returned = final.returned ∧ served.state.disk = final.disk ∧
      served.state.tracker = final.tracker.stands := by
  obtain ⟨served, hserved, -, hrefines⟩ := hrun.simulates
    (fun tracking served => Orderly tracking ∧ Refines tracking served)
    ⟨orderly_initial, refines_initial⟩ fun before taken after served hrelated hallowed hstep => by
      obtain ⟨horderly, hrefines⟩ := hrelated
      obtain ⟨served', hserved, hafter⟩ := refines_step horderly hrefines hallowed hstep
      exact ⟨served', hserved, orderly_step horderly hstep, hafter⟩
  exact ⟨served, hserved, hrefines.returned, hrefines.disk, hrefines.tracker⟩

/-! ### A snapshot during a refresh -/

/-- The first snapshot begins before the refresh takes the lock, the second one after that. -/
def snapshotDuringRefresh : List Step :=
  [.world (.create "a.jsonl" [.ok Usage.pricedText] 115 1767225600), .test,
   .begin 1767225601 ["a.jsonl"], .advance, .advance, .enter, .advance, .copy, .copy, .advance,
   .copy, .copy, .leave, .acquire, .assign, .assign, .assign, .assign, .assign, .release, .enter,
   .copy, .copy, .wake, .copy, .copy, .leave]

theorem snapshots_linearize_duringRefresh :
    ∃ served, Run (Served.step Usage.transcriptReader) (Permits fun _ => True) .initial
        (snapshotDuringRefresh.flatMap Step.atomic) served ∧
      served.returned =
        [{}, ⟨.finite 5, .finite 1000000, .finite 5, .finite 1000000⟩] := by
  have hreturned : (runActions (step Usage.transcriptReader) initial snapshotDuringRefresh).map
      Tracking.returned = some [{}, ⟨.finite 5, .finite 1000000, .finite 5, .finite 1000000⟩] := by
    decide +kernel
  obtain ⟨final, hfinal, hsnapshots⟩ := Option.map_eq_some_iff.mp hreturned
  obtain ⟨served, hserved, hsame, -⟩ := @snapshots_linearize Usage.transcriptReader final
    snapshotDuringRefresh (fun _ => True) (run_of_runActions hfinal fun _ _ _ _ _ => trivial)
  exact ⟨served, hserved, hsame.trans hsnapshots⟩

/-! ## Waiting and stopping -/

/-- A step of the thread, or of the one that holds the lock. -/
def Step.own : Step → Bool
  | .world _ | .stop | .enter => false
  | _ => true

/-- Nobody waits for the lock forever: the one that holds it can go on. -/
theorem Orderly.goes_on (h : Orderly tracking) :
    tracking.phase = .finished ∧ tracking.tracker.holder = .free ∨
      ∃ taken, taken.own = true ∧ (tracking.step reader taken).isSome = true := by
  cases hholder : tracking.tracker.holder with
  | writing source done =>
      rcases h.tidy.writer_goes_on hholder with hassigns | hreleases
      · exact .inr ⟨.assign, rfl, by simp [step, hassigns]⟩
      · exact .inr ⟨.release, rfl, by simp [step, hreleases]⟩
  | reading seen done =>
      rcases h.tidy.reader_goes_on hholder with hcopies | hleaves
      · exact .inr ⟨.copy, rfl, by simp [step, hcopies]⟩
      · exact .inr ⟨.leave, rfl, by simp [step, hleaves]⟩
  | free =>
      cases hphase : tracking.phase with
      | testing => exact .inr ⟨.test, rfl, by simp [step, hphase]⟩
      | calling => exact .inr ⟨.absent, rfl, by simp [step, hphase]⟩
      | refreshing refresh =>
          cases hdone : refresh.done with
          | true =>
              exact .inr ⟨.acquire, rfl, by simp [step, hphase, hdone, Locked.beginWrite, hholder]⟩
          | false =>
              have hadvances := @Usage.isSome_advance reader (tracking.seen (.refreshing refresh))
                refresh rfl
              exact .inr ⟨.advance, rfl, by simp [step, hphase, hdone, hadvances]⟩
      | publishing =>
          have hwriting := h.writing
          rw [hholder, hphase] at hwriting
          cases hwriting
      | waiting => exact .inr ⟨.wake, rfl, by simp [step, hphase]⟩
      | finished => exact .inl ⟨rfl, rfl⟩

/-- The refreshes that the thread can still begin, once it has been stopped. -/
def beginnings : TrackerPhase → ℕ
  | .calling => 1
  | _ => 0

/-- The refreshes that it can still publish. -/
def publications : TrackerPhase → ℕ
  | .calling | .refreshing _ => 1
  | _ => 0

def Step.begins : Step → Bool
  | .begin _ _ => true
  | _ => false

def Step.publishes : Step → Bool
  | .acquire => true
  | _ => false

theorem remaining_ofActivity (activity : Activity) :
    beginnings (.ofActivity activity) = 0 ∧ publications (.ofActivity activity) ≤ 1 := by
  cases activity with
  | refreshing refresh => exact ⟨rfl, le_refl 1⟩
  | waiting => exact ⟨rfl, Nat.zero_le 1⟩
  | raised exception => exact ⟨rfl, Nat.zero_le 1⟩

theorem stopped_step (hstopped : before.stopped = true)
    (hstep : before.step reader taken = some after) :
    after.stopped = true ∧
      beginnings after.phase + taken.begins.toNat ≤ beginnings before.phase ∧
      publications after.phase + taken.publishes.toNat ≤ publications before.phase := by
  cases takes_of_step hstep with
  | world _ _ => exact ⟨hstopped, le_refl _, le_refl _⟩
  | stop => exact ⟨rfl, le_refl _, le_refl _⟩
  | call _ hgoes =>
      rw [hstopped] at hgoes
      cases hgoes
  | finish _ _ => exact ⟨hstopped, Nat.zero_le _, Nat.zero_le _⟩
  | absent _ => exact ⟨hstopped, Nat.zero_le _, Nat.zero_le _⟩
  | begin hphase =>
      rw [hphase]
      exact ⟨hstopped, le_refl 1, le_refl 1⟩
  | @advance refresh state hphase _ _ =>
      obtain ⟨hbegins, hpublishes⟩ := remaining_ofActivity state.activity
      rw [hphase]
      exact ⟨hstopped, hbegins.le, hpublishes⟩
  | @fail refresh state hphase _ =>
      obtain ⟨hbegins, hpublishes⟩ := remaining_ofActivity state.activity
      rw [hphase]
      exact ⟨hstopped, hbegins.le, hpublishes⟩
  | acquire hphase _ _ =>
      rw [hphase]
      exact ⟨hstopped, le_refl 0, le_refl 1⟩
  | assign _ => exact ⟨hstopped, le_refl _, le_refl _⟩
  | release _ => exact ⟨hstopped, Nat.zero_le _, Nat.zero_le _⟩
  | wake _ => exact ⟨hstopped, Nat.zero_le _, Nat.zero_le _⟩
  | enter _ => exact ⟨hstopped, le_refl _, le_refl _⟩
  | copy _ => exact ⟨hstopped, le_refl _, le_refl _⟩
  | leave _ => exact ⟨hstopped, le_refl _, le_refl _⟩

/-- **The tracker ends.**  In every state that it reaches it has ended, or the thread or whoever
holds the lock can go on; and after `stop` it begins one more refresh at most, and publishes one
at most. -/
theorem tracker_ends (hrun : Runs reader allowed initial steps tracking) :
    (tracking.phase = .finished ∧ tracking.tracker.holder = .free ∨
        ∃ taken, taken.own = true ∧ (tracking.step reader taken).isSome = true) ∧
      ∀ later final, tracking.stopped = true → Runs reader allowed tracking later final →
        later.countP Step.begins ≤ 1 ∧ later.countP Step.publishes ≤ 1 := by
  refine ⟨(orderly_of_run hrun).goes_on, fun later final hstopped hlater => ?_⟩
  have hbegins := (hlater.countP_le (fun tracking => tracking.stopped = true)
    (fun tracking => beginnings tracking.phase) Step.begins hstopped
    fun _ _ _ hmiddle _ hstep =>
      (stopped_step hmiddle hstep).imp id fun hcounts => hcounts.1).2
  have hpublishes := (hlater.countP_le (fun tracking => tracking.stopped = true)
    (fun tracking => publications tracking.phase) Step.publishes hstopped
    fun _ _ _ hmiddle _ hstep =>
      (stopped_step hmiddle hstep).imp id fun hcounts => hcounts.2).2
  have hmostBegins : beginnings tracking.phase ≤ 1 := by
    cases tracking.phase <;> simp [beginnings]
  have hmostPublishes : publications tracking.phase ≤ 1 := by
    cases tracking.phase <;> simp [publications]
  exact ⟨by omega, by omega⟩

/-! ### Stopped at the beginning of a refresh -/

/-- The render loop is in a snapshot when `stop` is called. -/
def stoppedWhenCalled : List Step :=
  [.test, .enter, .copy, .stop]

def lastRefresh : List Step :=
  [.begin 0 [], .copy, .copy, .copy, .leave, .acquire, .assign, .assign, .assign, .assign, .assign,
    .release, .wake, .test]

theorem tracker_ends_stopped :
    ∃ tracking final, runActions (step Usage.transcriptReader) initial stoppedWhenCalled =
        some tracking ∧
      (∃ taken, taken.own = true ∧
        (tracking.step Usage.transcriptReader taken).isSome = true) ∧
      runActions (step Usage.transcriptReader) tracking lastRefresh = some final ∧
      lastRefresh.countP Step.begins ≤ 1 := by
  obtain ⟨tracking, final, hrun, hphase, hstopped, hlater⟩ :
      ∃ tracking final, runActions (step Usage.transcriptReader) initial stoppedWhenCalled =
          some tracking ∧ tracking.phase = .calling ∧ tracking.stopped = true ∧
        runActions (step Usage.transcriptReader) tracking lastRefresh = some final :=
    ⟨_, _, rfl, rfl, rfl, rfl⟩
  obtain ⟨hgoes, hlast⟩ := @tracker_ends Usage.transcriptReader tracking stoppedWhenCalled
    (fun _ => True) (run_of_runActions hrun fun _ _ _ _ _ => trivial)
  refine ⟨tracking, final, hrun, hgoes.resolve_left fun hended => ?_, hlater,
    (hlast lastRefresh final hstopped (run_of_runActions hlater fun _ _ _ _ _ => trivial)).1⟩
  rw [hphase] at hended
  cases hended.1

end Tracking

end Frontend
end SiliconOffice
