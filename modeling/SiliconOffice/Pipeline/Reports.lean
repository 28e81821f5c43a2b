import SiliconOffice.Daemon.Ordering
import SiliconOffice.Daemon.Updates
import SiliconOffice.Frontend.Frames
import SiliconOffice.Pipeline.Replica

/-!
# What the messages of the daemon report

Every message of the daemon reports something of one session, or of all of them at once
(`Report`).  A report is a well-formed message, and handling it makes the frontend hold just
what it tells (`handle_report`).

On the event loop a report can be out of date by the time it is written.  `Truthful` says what
is so all the same, of every message on its way and of everything that is still to become one:
unless there is a newer change of the session, what it tells of the session is so.
-/

namespace SiliconOffice
namespace Pipeline

open Library Python Common Daemon Frontend

/-- What a message reports. -/
inductive Report
  | upsert (sid : String) (record : AgentRecord)
  | remove (sid : String)
  | snapshot (registry : SessionRegistry)

namespace Report

/-- The message of the report. -/
def body (floatText : PyFloat → String) (ts : ℚ) : Report → Json
  | upsert sid record => makeDiffMessage (.str sid) .upsert (some record) ts
  | remove sid => makeDiffMessage (.str sid) .remove none ts
  | snapshot registry => makeSnapshotMessage floatText registry.agents ts

/-- What it tells of a session: its record, or that it is gone. -/
def tells (key : DictKey) : Report → Option (Option AgentRecord)
  | upsert sid record => if key == .str sid then some (some record) else none
  | remove sid => if key == .str sid then some none else none
  | snapshot registry => some (registry.get? key)

/-- Sessions are named by non-empty strings. -/
def Proper : Report → Prop
  | upsert sid _ => sid ≠ ""
  | remove sid => sid ≠ ""
  | snapshot registry => Named registry

end Report

variable {report : Report} {app : App}

/-- A report is a well-formed message. -/
theorem wellFormed_report (floatText : PyFloat → String) (ts : ℚ) (h : report.Proper) :
    App.WellFormed (report.body floatText ts) := by
  cases report with
  | upsert sid record =>
      refine ⟨rfl, ⟨fun agents hagents => ?_, fun agent hagent => ?_⟩, fun value hvalue => ?_,
        fun agents hagents => ?_, fun value hvalue => ?_⟩
      · cases hagents
      · cases hagent
        exact record.isObject_toWireDict
      · cases hvalue
      · cases hagents
      · cases hvalue
        exact ⟨.str sid, rfl⟩
  | remove sid =>
      refine ⟨rfl, ⟨fun agents hagents => ?_, fun agent hagent => ?_⟩, fun value hvalue => ?_,
        fun agents hagents => ?_, fun value hvalue => ?_⟩
      · cases hagents
      · cases hagent
      · cases hvalue
      · cases hagents
      · cases hvalue
        exact ⟨.str sid, rfl⟩
  | snapshot registry =>
      have hsnapshot := isSnapshot_makeSnapshotMessage floatText h ts
      refine ⟨rfl, ⟨fun agents hagents => ?_, fun agent hagent => ?_⟩, fun value hvalue => ?_,
        fun agents hagents => ?_, fun value hvalue => ?_⟩
      · cases hagents
        exact hsnapshot.objects
      · cases hagent
      · cases hvalue
        rfl
      · cases hagents
        exact hsnapshot.distinct
      · cases hvalue

/-- **Handling a report makes the frontend hold what it tells.** -/
theorem handle_report (floatText : PyFloat → String) (moment : Moment) (ts : ℚ)
    (h : report.Proper) (happ : App.AllObjects app) (key : DictKey) :
    (after ((App.handleMessage moment (report.body floatText ts)).run app)).agents.get? key =
      ((report.tells key).map (Option.map AgentRecord.toWireDict)).getD (app.agents.get? key) := by
  cases report with
  | upsert sid record =>
      show (after ((App.handleMessage moment
        (makeDiffMessage (.str sid) .upsert (some record) ts)).run app)).agents.get? key = _
      rw [agents_of_upsert moment h record ts happ, OrderedDict.get?_store, Report.tells]
      split <;> rfl
  | remove sid =>
      show (after ((App.handleMessage moment
        (makeDiffMessage (.str sid) .remove none ts)).run app)).agents.get? key = _
      rw [agents_of_remove moment h ts app key, Report.tells]
      split <;> rfl
  | snapshot registry =>
      have hsnapshot := isSnapshot_makeSnapshotMessage floatText h ts
      obtain ⟨-, hheld⟩ := (@App.heals_iff moment _ app _ hsnapshot).mpr (happ.readable _)
      refine (hheld key).trans ?_
      exact named_items floatText (fun item hitem => (h.of_mem hitem).imp fun _ h => h.2) key

theorem allObjects_report (floatText : PyFloat → String) (moment : Moment) (ts : ℚ)
    (h : report.Proper) (happ : App.AllObjects app) :
    App.AllObjects (after ((App.handleMessage moment (report.body floatText ts)).run app)) :=
  (App.preserved_allObjects moment).handleMessage happ (wellFormed_report floatText ts h).carries

/-! ## Out of date or so -/

/-- Unless there is a newer change of the session, the registry shows this of it. -/
def Holds (d : EventLoop) (key : DictKey) (version : ℕ) (told : Option AgentRecord) : Prop :=
  version = latest key d.changes → Option.Rel SameActivity told (d.registry.get? key)

/-- Sessions without news look as before. -/
structure Follows (d next : EventLoop) : Prop where
  grows : ∃ news, next.changes = d.changes ++ news
  same : ∀ key, latest key next.changes = latest key d.changes →
    Option.Rel SameActivity (d.registry.get? key) (next.registry.get? key)

theorem SameActivity.trans {record between final : AgentRecord}
    (hfirst : SameActivity record between) (hsecond : SameActivity between final) :
    SameActivity record final := by
  obtain ⟨hstate, hlabel, hsince⟩ := hfirst
  obtain ⟨hstate', hlabel', hsince'⟩ := hsecond
  exact ⟨hstate'.trans hstate, hlabel'.trans hlabel, hsince'.trans hsince⟩

variable {d next : EventLoop} {key : DictKey} {version : ℕ} {told : Option AgentRecord}

theorem follows_of_same (hregistry : next.registry = d.registry)
    (hchanges : next.changes = d.changes) : Follows d next where
  grows := ⟨[], by rw [hchanges, List.append_nil]⟩
  same key _ := by
    rw [hregistry]
    exact rel_refl SameActivity.refl _

theorem Holds.of_follows (h : Holds d key version told) (hversion : version ≤ latest key d.changes)
    (hfollows : Follows d next) : Holds next key version told := by
  intro hlatest
  obtain ⟨news, hnews⟩ := hfollows.grows
  have hle : latest key d.changes ≤ latest key next.changes := by
    rw [hnews]
    exact latest_le_append key d.changes news
  have hsame : version = latest key d.changes := by omega
  have hregistry := hfollows.same key (by omega)
  exact @rel_trans _ _ _ SameActivity SameActivity SameActivity
    (fun _ _ _ hfirst hsecond => SameActivity.trans hfirst hsecond) _ _ _ (h hsame) hregistry

/-- The report that a message carries, which is so as of the stamp of the message. -/
structure Carries (floatText : PyFloat → String) (d : EventLoop) (message : Message)
    (report : Report) : Prop where
  body : ∃ ts, message.body = report.body floatText ts
  proper : report.Proper
  tells : ∀ key, match message.stamp.version d.changes key with
    | some version => ∃ told, report.tells key = some told ∧ Holds d key version told
    | none => report.tells key = none

/-- A message that reports what is so. -/
structure Truthful (floatText : PyFloat → String) (d : EventLoop) (message : Message) : Prop where
  within : message.stamp.Within d.changes.length
  carries : ∃ report, Carries floatText d message report

variable {floatText : PyFloat → String} {message : Message}

theorem Truthful.of_follows (h : Truthful floatText d message) (hfollows : Follows d next) :
    Truthful floatText next message := by
  obtain ⟨report, hbody, hproper, htells⟩ := h.carries
  obtain ⟨news, hnews⟩ := hfollows.grows
  refine ⟨h.within.mono ?_, report, hbody, hproper, fun key => ?_⟩
  · rw [hnews, List.length_append]
    exact Nat.le_add_right _ _
  · have hkey := htells key
    rw [hnews, Stamp.version_append h.within]
    cases hversion : message.stamp.version d.changes key with
    | none =>
        rw [hversion] at hkey
        exact hkey
    | some version =>
        rw [hversion] at hkey
        obtain ⟨told, htold, hholds⟩ := hkey
        exact ⟨told, htold, hholds.of_follows (Stamp.version_le_latest hversion) hfollows⟩

end Pipeline
end SiliconOffice
