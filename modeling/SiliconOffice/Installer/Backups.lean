import Mathlib.Algebra.Order.Floor.Semiring
import Mathlib.Data.Rat.Floor
import SiliconOffice.Common.Ipc
import SiliconOffice.Installer.Merge
import SiliconOffice.Library.Runs

/-!
# The installer on its files

A run loads the settings, and when they have to change copies them to a backup file and
replaces them.  The backup is named after the second on the clock, so two runs in one second
make one file of that name, and the copy of the second run overwrites that of the first.

`files_run` is all that a run does to the files.  The contents that the runs of a history
have replaced are recorded beside the machine (`History`); `backups_kept_iff` says when all
of them are still there in every state.
-/

namespace SiliconOffice
namespace Installer

open Library Python Common

/-! ## Files -/

/-- A file: its directory and its name. -/
structure Path where
  parent : String
  name : String
  deriving DecidableEq

/-- `str(path)`. -/
def Path.text (path : Path) : String :=
  path.parent ++ "/" ++ path.name

/-- `path.with_name(name)`. -/
def Path.withName (path : Path) (name : String) : Path :=
  { path with name := name }

/-- The content of every file that exists. -/
abbrev Files := Path → Option Bytes

namespace Files

/-- Create or overwrite a file. -/
def write (path : Path) (content : Bytes) (files : Files) : Files :=
  Function.update files path (some content)

/-- `os.replace`. -/
def replace (source target : Path) (files : Files) : Files :=
  Function.update (Function.update files target (files source)) source none

end Files

/-- What the installer asks of the machine it runs on. -/
structure Platform where
  /-- `str` of a JSON value that is no string. -/
  repr : Json → String
  /-- `pathlib.Path.home()`. -/
  home : String
  /-- `json.loads(path.read_text())`. -/
  loads : Bytes → Except PyErr Json
  /-- The text of the `JSONDecodeError` that `loads` raises. -/
  decodeErrorText : Bytes → String
  /-- `json.dumps(data, indent=2)`. -/
  dumps : Json → Except PyErr String
  /-- `strftime("%Y-%m-%dT%H-%M-%SZ")` of a second on the UTC clock. -/
  strftime : Int → String

/-- The choices of `--scope`. -/
inductive Scope
  | project
  | global
  deriving DecidableEq

/-- The arguments of `run`. -/
structure Command where
  scope : Scope
  projectRoot : String
  emitterPath : String
  dryRun : Bool
  uninstall : Bool

/-- The machine as far as the installer changes it: its files and what was printed. -/
structure Machine where
  files : Files
  printed : List String

/-- How a run ends. -/
inductive Outcome
  | returned (code : Nat)
  | systemExit (message : String)
  | raised (exception : PyErr)

def Machine.print (text : String) (machine : Machine) : Machine :=
  { machine with printed := machine.printed ++ [text] }

@[simp] theorem Machine.files_print (text : String) (machine : Machine) :
    (machine.print text).files = machine.files := rfl

/-! ## One run -/

section

variable (platform : Platform)

/-- The directory of `_settings_path`. -/
def settingsDir (command : Command) : String :=
  match command.scope with
  | .global => platform.home ++ "/.claude"
  | .project => command.projectRoot ++ "/.claude"

/-- `settings.json` in that directory. -/
def settingsIn (dir : String) : Path :=
  ⟨dir, "settings.json"⟩

/-- `_settings_path`. -/
def settingsPath (command : Command) : Path :=
  settingsIn (settingsDir platform command)

/-- `_load`. -/
def load (files : Files) (path : Path) : Except Outcome Json :=
  match files path with
  | none => .ok (.obj [])
  | some content =>
      match platform.loads content with
      | .ok data => .ok data
      | .error .jsonDecodeError =>
          .error (.systemExit ("Refusing to touch " ++ path.text ++
            ": existing file is not valid JSON (" ++ platform.decodeErrorText content ++ ")"))
      | .error exception => .error (.raised exception)

/-- The backup of a file under a time stamp. -/
def backupPath (path : Path) (stamp : String) : Path :=
  path.withName (path.name ++ ".backup." ++ stamp)

/-- The time stamp of a backup made now. -/
def stampOf (now : ℚ) : String :=
  platform.strftime ⌊now⌋

/-- `_backup`; `copy2` overwrites. -/
def backup (now : ℚ) (path : Path) (files : Files) : Files :=
  match files path with
  | none => files
  | some content => files.write (backupPath path (stampOf platform now)) content

/-- `path.with_name(path.name + ".tmp")`. -/
def tmpPath (path : Path) : Path :=
  path.withName (path.name ++ ".tmp")

/-- `_atomic_write`; nothing is written when `dumps` raises. -/
def atomicWrite (path : Path) (data : Json) (files : Files) : Except PyErr Files :=
  match platform.dumps data with
  | .ok text =>
      .ok ((files.write (tmpPath path) (encodeUtf8 (text ++ "\n"))).replace (tmpPath path) path)
  | .error exception => .error exception

/-- `run`. -/
def run (command : Command) (now : ℚ) (machine : Machine) : Outcome × Machine :=
  let path := settingsPath platform command
  match load platform machine.files path with
  | .error outcome => (outcome, machine)
  | .ok existing =>
      match buildUpdatedSettings platform.repr existing command.emitterPath
          (!command.uninstall) with
      | .error exception => (.raised exception, machine)
      | .ok updated =>
          if updated.eq existing then
            (.returned 0, machine.print (path.text ++ ": already up to date, nothing to do."))
          else if command.dryRun then
            let action := if command.uninstall then "uninstall" else "install"
            let machine := machine.print ("Would " ++ action ++ " hooks in " ++ path.text ++ ":")
            match platform.dumps updated with
            | .ok text => (.returned 0, machine.print text)
            | .error exception => (.raised exception, machine)
          else
            let files := backup platform now path machine.files
            match atomicWrite platform path updated files with
            | .ok files =>
                let verb := if command.uninstall then "Uninstalled" else "Installed"
                (.returned 0,
                  { machine with files := files }.print (verb ++ " hooks in " ++ path.text))
            | .error exception => (.raised exception, { machine with files := files })

/-- The settings that a run sets out to write, if it gets that far. -/
def pendingUpdate (command : Command) (files : Files) : Option Json :=
  match load platform files (settingsPath platform command) with
  | .error _ => none
  | .ok existing =>
      match buildUpdatedSettings platform.repr existing command.emitterPath
          (!command.uninstall) with
      | .error _ => none
      | .ok updated => if updated.eq existing || command.dryRun then none else some updated

end

/-! ## What a run does to the files -/

section

variable {platform : Platform} {command : Command} {now : ℚ} {machine : Machine}
  {files : Files} {path : Path}

/-- **One run.**  A run that does not set out to write leaves every file alone; the others
make a backup, and then replace the settings unless `dumps` raises. -/
theorem files_run :
    (run platform command now machine).2.files =
      match pendingUpdate platform command machine.files with
      | none => machine.files
      | some updated =>
          let files := backup platform now (settingsPath platform command) machine.files
          match atomicWrite platform (settingsPath platform command) updated files with
          | .ok files => files
          | .error _ => files := by
  unfold run pendingUpdate
  dsimp only
  cases load platform machine.files (settingsPath platform command) with
  | error outcome => rfl
  | ok existing =>
      dsimp only
      cases buildUpdatedSettings platform.repr existing command.emitterPath
          (!command.uninstall) with
      | error exception => rfl
      | ok updated =>
          dsimp only
          by_cases hsame : updated.eq existing = true
          · have hquiet : (updated.eq existing || command.dryRun) = true := by
              rw [hsame, Bool.true_or]
            simp only [if_pos hsame, if_pos hquiet, Machine.files_print]
          · rw [if_neg hsame]
            by_cases hdry : command.dryRun = true
            · have hquiet : (updated.eq existing || command.dryRun) = true := by
                rw [hdry, Bool.or_true]
              simp only [if_pos hdry, if_pos hquiet]
              cases platform.dumps updated <;> rfl
            · have hwrites : ¬ (updated.eq existing || command.dryRun) = true := by
                rw [Bool.or_eq_true]
                exact not_or.mpr ⟨hsame, hdry⟩
              simp only [if_neg hdry, if_neg hwrites]
              cases atomicWrite platform (settingsPath platform command) updated
                (backup platform now (settingsPath platform command) machine.files) <;> rfl

/-- The three kinds of files never meet. -/
theorem backupPath_ne_settings (dir other stamp : String) :
    backupPath (settingsIn dir) stamp ≠ settingsIn other := by
  intro h
  have hname := congrArg (fun path => path.name.toList.length) h
  simp [backupPath, settingsIn, Path.withName] at hname

theorem backupPath_ne_tmp (dir other stamp : String) :
    backupPath (settingsIn dir) stamp ≠ tmpPath (settingsIn other) := by
  intro h
  have hname := congrArg (fun path => path.name.toList.drop 14) h
  simp [backupPath, tmpPath, settingsIn, Path.withName] at hname

theorem backupPath_inj {dir other stamp otherStamp : String} :
    backupPath (settingsIn dir) stamp = backupPath (settingsIn other) otherStamp ↔
      dir = other ∧ stamp = otherStamp := by
  constructor
  · intro h
    refine ⟨congrArg Path.parent h, ?_⟩
    have hname := congrArg (fun path => path.name.toList) h
    simpa [backupPath, settingsIn, Path.withName, String.ext_iff] using hname
  · rintro ⟨rfl, rfl⟩
    rfl

theorem atomicWrite_backupPath {dir : String} {data : Json} {left : Files}
    (h : atomicWrite platform (settingsIn dir) data files = .ok left) (other stamp : String) :
    left (backupPath (settingsIn other) stamp) = files (backupPath (settingsIn other) stamp) := by
  unfold atomicWrite at h
  split at h
  · rw [← Except.ok.inj h]
    unfold Files.replace Files.write
    rw [Function.update_of_ne (backupPath_ne_tmp other dir stamp),
      Function.update_of_ne (backupPath_ne_settings other dir stamp),
      Function.update_of_ne (backupPath_ne_tmp other dir stamp)]
  · cases h

/-- The backups after a run: a run that sets out to write puts a copy of the settings under
the name of its second. -/
theorem backups_run (dir stamp : String) :
    (run platform command now machine).2.files (backupPath (settingsIn dir) stamp) =
      match pendingUpdate platform command machine.files,
          machine.files (settingsPath platform command) with
      | some _, some content =>
          if dir = settingsDir platform command ∧ stamp = stampOf platform now then some content
          else machine.files (backupPath (settingsIn dir) stamp)
      | _, _ => machine.files (backupPath (settingsIn dir) stamp) := by
  rw [files_run]
  cases pendingUpdate platform command machine.files with
  | none => rfl
  | some updated =>
      have hbackup : backup platform now (settingsPath platform command) machine.files
          (backupPath (settingsIn dir) stamp) =
            match machine.files (settingsPath platform command) with
            | some content =>
                if dir = settingsDir platform command ∧ stamp = stampOf platform now then
                  some content
                else machine.files (backupPath (settingsIn dir) stamp)
            | none => machine.files (backupPath (settingsIn dir) stamp) := by
        unfold backup
        cases machine.files (settingsPath platform command) with
        | none => rfl
        | some content =>
            show Function.update machine.files
              (backupPath (settingsPath platform command) (stampOf platform now)) (some content)
              (backupPath (settingsIn dir) stamp) = _
            rw [Function.update_apply]
            exact if_congr backupPath_inj rfl rfl
      dsimp only
      cases hwrite : atomicWrite platform (settingsPath platform command) updated
          (backup platform now (settingsPath platform command) machine.files) with
      | ok left =>
          dsimp only
          rw [atomicWrite_backupPath hwrite, hbackup]
          cases machine.files (settingsPath platform command) <;> rfl
      | error exception =>
          dsimp only
          rw [hbackup]
          cases machine.files (settingsPath platform command) <;> rfl

/-- A run touches no backup but the one of its second. -/
theorem backup_run_of_ne {dir stamp : String}
    (hname : ¬ (dir = settingsDir platform command ∧ stamp = stampOf platform now)) :
    (run platform command now machine).2.files (backupPath (settingsIn dir) stamp) =
      machine.files (backupPath (settingsIn dir) stamp) := by
  rw [backups_run]
  split
  · exact if_neg hname
  · rfl

/-- Without settings there is nothing to back up. -/
theorem backup_run_of_missing (hfile : machine.files (settingsPath platform command) = none)
    (dir stamp : String) :
    (run platform command now machine).2.files (backupPath (settingsIn dir) stamp) =
      machine.files (backupPath (settingsIn dir) stamp) := by
  rw [backups_run, hfile]
  cases pendingUpdate platform command machine.files <;> rfl

/-- A run that sets out to write leaves a copy of the settings. -/
theorem backup_run_self {updated : Json} {content : Bytes}
    (hpending : pendingUpdate platform command machine.files = some updated)
    (hfile : machine.files (settingsPath platform command) = some content) :
    (run platform command now machine).2.files
      (backupPath (settingsIn (settingsDir platform command)) (stampOf platform now)) =
        some content := by
  rw [backups_run, hpending, hfile]
  exact if_pos ⟨rfl, rfl⟩

/-- What the settings hold after a run that writes them. -/
theorem settings_run {updated : Json} {text : String}
    (hpending : pendingUpdate platform command machine.files = some updated)
    (htext : platform.dumps updated = .ok text) :
    (run platform command now machine).2.files (settingsPath platform command) =
      some (encodeUtf8 (text ++ "\n")) := by
  have htmp : settingsPath platform command ≠ tmpPath (settingsPath platform command) := by
    intro h
    have hname := congrArg (fun path => path.name.toList.length) h
    simp [settingsPath, settingsIn, tmpPath, Path.withName] at hname
  rw [files_run, hpending]
  dsimp only
  unfold atomicWrite
  rw [htext]
  dsimp only
  unfold Files.replace Files.write
  rw [Function.update_of_ne htmp, Function.update_self, Function.update_self]

end

/-! ## Histories -/

/-- The machine, with the contents of settings files that the runs so far have replaced. -/
structure History where
  machine : Machine
  replaced : List (String × Bytes)

section

variable (platform : Platform)

/-- One more run. -/
def History.advance (history : History) (timed : Command × ℚ) : History :=
  let machine := (run platform timed.1 timed.2 history.machine).2
  { machine := machine
    replaced :=
      match history.machine.files (settingsPath platform timed.1) with
      | some content =>
          if machine.files (settingsPath platform timed.1) = some content then history.replaced
          else (settingsDir platform timed.1, content) :: history.replaced
      | none => history.replaced }

/-- The state after a list of runs on a machine with those files. -/
def historyOf (files : Files) (runs : List (Command × ℚ)) : History :=
  runs.foldl (History.advance platform) ⟨⟨files, []⟩, []⟩

/-- Every content that was replaced is in some backup file beside the settings. -/
def History.Backed (history : History) : Prop :=
  ∀ item ∈ history.replaced,
    ∃ stamp, history.machine.files (backupPath (settingsIn item.1) stamp) = some item.2

/-- The run changes nothing: it is a dry run, or what it would write is there already. -/
def Quiet (command : Command) (files : Files) : Prop :=
  command.dryRun = true ∨
    ∀ existing updated, load platform files (settingsPath platform command) = .ok existing →
      buildUpdatedSettings platform.repr existing command.emitterPath (!command.uninstall) =
        .ok updated → updated.eq existing = true

/-- The run gets as far as writing a backup. -/
def BacksUp (history : History) (timed : Command × ℚ) : Prop :=
  ∃ updated content,
    pendingUpdate platform timed.1 history.machine.files = some updated ∧
      history.machine.files (settingsPath platform timed.1) = some content

/-- A run that backs the settings up does not overwrite the last copy of something else:
what the backup file of this second holds, if it is a content that was replaced before, is
what the settings hold now, or another backup holds it too. -/
def Spares (history : History) (timed : Command × ℚ) : Prop :=
  ∀ updated content kept,
    pendingUpdate platform timed.1 history.machine.files = some updated →
    history.machine.files (settingsPath platform timed.1) = some content →
    (settingsDir platform timed.1, kept) ∈ history.replaced →
    history.machine.files (backupPath (settingsPath platform timed.1)
      (stampOf platform timed.2)) = some kept →
    kept = content ∨ ∃ stamp, stamp ≠ stampOf platform timed.2 ∧
      history.machine.files (backupPath (settingsPath platform timed.1) stamp) = some kept

end

section

variable {platform : Platform} {history : History} {timed : Command × ℚ} {machine : Machine}

theorem pendingUpdate_of_quiet {command : Command} {files : Files}
    (h : Quiet platform command files) : pendingUpdate platform command files = none := by
  unfold pendingUpdate
  cases hload : load platform files (settingsPath platform command) with
  | error outcome => rfl
  | ok existing =>
      dsimp only
      cases hupdated : buildUpdatedSettings platform.repr existing command.emitterPath
          (!command.uninstall) with
      | error exception => rfl
      | ok updated =>
          rcases h with hdry | hsame
          · exact if_pos (by rw [hdry, Bool.or_true])
          · exact if_pos (by rw [hsame existing updated hload hupdated, Bool.true_or])

/-- A quiet run changes no file. -/
theorem files_run_of_quiet {command : Command} (h : Quiet platform command machine.files)
    (now : ℚ) : (run platform command now machine).2.files = machine.files := by
  rw [files_run, pendingUpdate_of_quiet h]

/-- A run that does not set out to write replaces nothing. -/
theorem advance_of_idle (h : pendingUpdate platform timed.1 history.machine.files = none) :
    (history.advance platform timed).replaced = history.replaced ∧
      (history.advance platform timed).machine.files = history.machine.files := by
  have hfiles : (run platform timed.1 timed.2 history.machine).2.files =
      history.machine.files := by
    rw [files_run, h]
  refine ⟨?_, hfiles⟩
  unfold History.advance
  dsimp only
  rw [hfiles]
  cases history.machine.files (settingsPath platform timed.1) with
  | none => rfl
  | some content => exact if_pos rfl

/-- What a run replaces is what the settings held. -/
theorem mem_replaced_advance {item : String × Bytes}
    (h : item ∈ (history.advance platform timed).replaced) :
    item ∈ history.replaced ∨
      ∃ content, history.machine.files (settingsPath platform timed.1) = some content ∧
        item = (settingsDir platform timed.1, content) := by
  unfold History.advance at h
  dsimp only at h
  cases hfile : history.machine.files (settingsPath platform timed.1) with
  | none =>
      rw [hfile] at h
      exact .inl h
  | some content =>
      rw [hfile] at h
      dsimp only at h
      split at h
      · exact .inl h
      · rcases List.mem_cons.mp h with hnew | hold
        · exact .inr ⟨content, rfl, hnew⟩
        · exact .inl hold

theorem replaced_advance {item : String × Bytes} (h : item ∈ history.replaced) :
    item ∈ (history.advance platform timed).replaced := by
  unfold History.advance
  dsimp only
  split
  · split
    · exact h
    · exact List.mem_cons_of_mem _ h
  · exact h

theorem mem_replaced_of_write {updated : Json} {text : String} {content : Bytes}
    (hpending : pendingUpdate platform timed.1 history.machine.files = some updated)
    (htext : platform.dumps updated = .ok text)
    (hfile : history.machine.files (settingsPath platform timed.1) = some content)
    (hne : content ≠ encodeUtf8 (text ++ "\n")) :
    (settingsDir platform timed.1, content) ∈ (history.advance platform timed).replaced := by
  unfold History.advance
  dsimp only
  rw [hfile, settings_run hpending htext]
  dsimp only
  rw [if_neg fun hsame => hne (Option.some.inj hsame).symm]
  exact List.mem_cons_self

/-- **One run keeps every replaced content exactly when it spares the last copies.** -/
theorem backed_advance_iff (h : history.Backed) :
    (history.advance platform timed).Backed ↔ Spares platform history timed := by
  constructor
  · intro hafter updated content kept hpending hcontent hkept hthere
    obtain ⟨stamp, hstamp⟩ := hafter _ (replaced_advance hkept)
    by_cases hsame : stamp = stampOf platform timed.2
    · subst hsame
      exact .inl (Option.some.inj (hstamp.symm.trans (backup_run_self hpending hcontent)))
    · exact .inr ⟨stamp, hsame,
        (backup_run_of_ne fun hboth => hsame hboth.2).symm.trans hstamp⟩
  · intro hspares item hitem
    cases hpending : pendingUpdate platform timed.1 history.machine.files with
    | none =>
        obtain ⟨hreplaced, hfiles⟩ := advance_of_idle hpending
        rw [hreplaced] at hitem
        rw [hfiles]
        exact h item hitem
    | some updated =>
        rcases mem_replaced_advance hitem with hold | ⟨content, hcontent, rfl⟩
        · obtain ⟨stamp, hstamp⟩ := h item hold
          cases hcontent : history.machine.files (settingsPath platform timed.1) with
          | none => exact ⟨stamp, (backup_run_of_missing hcontent _ _).trans hstamp⟩
          | some content =>
              by_cases hhere : item.1 = settingsDir platform timed.1 ∧
                  stamp = stampOf platform timed.2
              · obtain ⟨dir, kept⟩ := item
                obtain ⟨rfl, rfl⟩ := hhere
                rcases hspares updated content kept hpending hcontent hold hstamp with
                  rfl | ⟨other, hother, hsaved⟩
                · exact ⟨_, backup_run_self hpending hcontent⟩
                · exact ⟨other,
                    (backup_run_of_ne fun hboth => hother hboth.2).trans hsaved⟩
              · exact ⟨stamp, (backup_run_of_ne hhere).trans hstamp⟩
        · exact ⟨_, backup_run_self hpending hcontent⟩

end

theorem historyOf_concat (platform : Platform) (files : Files) (earlier : List (Command × ℚ))
    (timed : Command × ℚ) :
    historyOf platform files (earlier ++ [timed]) =
      (historyOf platform files earlier).advance platform timed :=
  List.foldl_concat ..

/-- **When no settings content is lost.**  Dry runs and runs with nothing to change leave
every file alone; and in every state of a sequence of runs all contents that were replaced
are in a backup exactly when no run overwrites the last copy of one. -/
theorem backups_kept_iff (platform : Platform) (files : Files) (runs : List (Command × ℚ)) :
    (∀ earlier timed, earlier ++ [timed] <+: runs →
      Quiet platform timed.1 (historyOf platform files earlier).machine.files →
        (historyOf platform files (earlier ++ [timed])).machine.files =
          (historyOf platform files earlier).machine.files) ∧
    ((∀ earlier, earlier <+: runs → (historyOf platform files earlier).Backed) ↔
      ∀ earlier timed, earlier ++ [timed] <+: runs →
        Spares platform (historyOf platform files earlier) timed) := by
  constructor
  · intro earlier timed _ hquiet
    rw [historyOf_concat]
    exact files_run_of_quiet hquiet timed.2
  · exact along_iff (fun item hitem => absurd hitem List.not_mem_nil) fun history timed hbacked =>
      backed_advance_iff hbacked

/-- Where no two runs back up the same settings in one second everything is kept: the copy of
a run is never written again. -/
theorem backed_of_distinct_stamps {platform : Platform} {files : Files}
    {runs : List (Command × ℚ)}
    (hdistinct : ∀ earlier first between second, earlier ++ first :: between ++ [second] <+: runs →
      BacksUp platform (historyOf platform files earlier) first →
      BacksUp platform (historyOf platform files (earlier ++ first :: between)) second →
      settingsDir platform first.1 = settingsDir platform second.1 →
        stampOf platform first.2 ≠ stampOf platform second.2) :
    (historyOf platform files runs).Backed := by
  have hcopies : ∀ item ∈ (historyOf platform files runs).replaced, ∃ earlier first between,
      runs = earlier ++ first :: between ∧
        BacksUp platform (historyOf platform files earlier) first ∧
        settingsDir platform first.1 = item.1 ∧
        (historyOf platform files runs).machine.files
          (backupPath (settingsIn item.1) (stampOf platform first.2)) = some item.2 := by
    induction runs using List.reverseRecOn with
    | nil => exact fun item hitem => absurd hitem List.not_mem_nil
    | append_singleton past timed ih =>
        have hpast := ih fun earlier first between second hbegins =>
          hdistinct earlier first between second (hbegins.trans (List.prefix_append _ _))
        intro item hitem
        rw [historyOf_concat] at hitem ⊢
        cases hpending : pendingUpdate platform timed.1
            (historyOf platform files past).machine.files with
        | none =>
            obtain ⟨hreplaced, hfiles⟩ := advance_of_idle hpending
            rw [hreplaced] at hitem
            obtain ⟨earlier, first, between, rfl, hbacks, hdir, hcopy⟩ := hpast item hitem
            exact ⟨earlier, first, between ++ [timed], by simp, hbacks, hdir, by rw [hfiles, hcopy]⟩
        | some updated =>
            rcases mem_replaced_advance hitem with hold | ⟨content, hfile, rfl⟩
            · obtain ⟨earlier, first, between, rfl, hbacks, hdir, hcopy⟩ := hpast item hold
              refine ⟨earlier, first, between ++ [timed], by simp, hbacks, hdir, ?_⟩
              cases hfile : (historyOf platform files (earlier ++ first :: between)).machine.files
                  (settingsPath platform timed.1) with
              | none => exact (backup_run_of_missing hfile _ _).trans hcopy
              | some content =>
                  refine (backup_run_of_ne fun hboth => ?_).trans hcopy
                  exact hdistinct earlier first between timed (List.prefix_refl _) hbacks
                    ⟨updated, content, hpending, hfile⟩ (hdir.trans hboth.1) hboth.2
            · exact ⟨past, timed, [], rfl, ⟨updated, content, hpending, hfile⟩, rfl,
                backup_run_self hpending hfile⟩
  intro item hitem
  obtain ⟨earlier, first, between, -, -, -, hcopy⟩ := hcopies item hitem
  exact ⟨_, hcopy⟩

/-! ### Two runs in one second -/

/-- What the first of two writing runs replaces is lost when the second comes in the same
second, unless there was a copy of it before. -/
theorem not_backed_of_one_second {platform : Platform} {files : Files} {first second : Command}
    {now later : ℚ} {updated next : Json} {text : String} {content : Bytes}
    (hpending : pendingUpdate platform first files = some updated)
    (htext : platform.dumps updated = .ok text)
    (hfile : files (settingsPath platform first) = some content)
    (hne : content ≠ encodeUtf8 (text ++ "\n"))
    (hnext : pendingUpdate platform second (run platform first now ⟨files, []⟩).2.files =
      some next)
    (hdir : settingsDir platform second = settingsDir platform first)
    (hsecond : stampOf platform later = stampOf platform now)
    (hfree : ∀ stamp,
      files (backupPath (settingsIn (settingsDir platform first)) stamp) = none) :
    ¬ (historyOf platform files [(first, now), (second, later)]).Backed := by
  intro hbacked
  have hreplaced : (settingsDir platform first, content) ∈
      (historyOf platform files [(first, now), (second, later)]).replaced :=
    replaced_advance (@mem_replaced_of_write platform ⟨⟨files, []⟩, []⟩ (first, now) updated text
      content hpending htext hfile hne)
  obtain ⟨stamp, hstamp⟩ := hbacked _ hreplaced
  have hsettings : (run platform first now ⟨files, []⟩).2.files (settingsPath platform second) =
      some (encodeUtf8 (text ++ "\n")) := by
    unfold settingsPath
    rw [hdir]
    exact @settings_run platform first now ⟨files, []⟩ updated text hpending htext
  have hafter := @backup_run_self platform second later
    (run platform first now ⟨files, []⟩).2 next _ hnext hsettings
  by_cases hsame : stamp = stampOf platform now
  · rw [hdir, hsecond, ← hsame] at hafter
    exact hne (Option.some.inj (hstamp.symm.trans hafter))
  · have hlater := @backup_run_of_ne platform second later
      (run platform first now ⟨files, []⟩).2 (settingsDir platform first) stamp
      fun hboth => hsame (hboth.2.trans hsecond)
    have hnow := @backup_run_of_ne platform first now ⟨files, []⟩ (settingsDir platform first)
      stamp fun hboth => hsame hboth.2
    have hnone := hlater.trans (hnow.trans (hfree stamp))
    cases hstamp.symm.trans hnone

/-- A line break and the indentation of that depth. -/
def lineBreak (depth : Nat) : String :=
  "\n" ++ String.ofList (List.replicate (2 * depth) ' ')

mutual

/-- `json.dumps(value, indent=2)` for values without floats and without characters to
escape. -/
def indented (depth : Nat) : Json → String
  | .null => "null"
  | .bool value => if value then "true" else "false"
  | .int value => toString value
  | .float _ => "0.0"
  | .str text => "\"" ++ text ++ "\""
  | .arr [] => "[]"
  | .arr (item :: rest) =>
      "[" ++ lineBreak (depth + 1) ++ indented (depth + 1) item ++
        indentedItems (depth + 1) rest ++ lineBreak depth ++ "]"
  | .obj [] => "\x7b\x7d"
  | .obj ((name, value) :: rest) =>
      "\x7b" ++ lineBreak (depth + 1) ++ "\"" ++ name ++ "\": " ++ indented (depth + 1) value ++
        indentedMembers (depth + 1) rest ++ lineBreak depth ++ "\x7d"

def indentedItems (depth : Nat) : List Json → String
  | [] => ""
  | item :: rest => "," ++ lineBreak depth ++ indented depth item ++ indentedItems depth rest

def indentedMembers (depth : Nat) : List (String × Json) → String
  | [] => ""
  | (name, value) :: rest =>
      "," ++ lineBreak depth ++ "\"" ++ name ++ "\": " ++ indented depth value ++
        indentedMembers depth rest

end

/-- The settings of an installation that knew one event, as a file. -/
def oldSettings : Json :=
  stopSettings [ourGroup "claude-vo-emit"]

def oldContent : Bytes :=
  encodeUtf8 (indented 0 oldSettings ++ "\n")

def emptiedContent : Bytes :=
  encodeUtf8 (indented 0 (.obj []) ++ "\n")

/-- `json.loads` on these settings and on empty ones. -/
def loadsOld (content : Bytes) : Except PyErr Json :=
  if content = oldContent then .ok oldSettings
  else if content = emptiedContent then .ok (.obj [])
  else .error .jsonDecodeError

/-- A machine in the first second of 1970. -/
def firstSecond : Platform where
  repr _ := ""
  home := "/home/user"
  loads := loadsOld
  decodeErrorText _ := "Expecting value: line 1 column 1 (char 0)"
  dumps data := .ok (indented 0 data)
  strftime _ := "1970-01-01T00-00-00Z"

def projectCommand (uninstall : Bool) : Command :=
  ⟨.project, "/project", "claude-vo-emit", false, uninstall⟩

def projectDir : String :=
  "/project" ++ "/.claude"

def oldFiles : Files :=
  Function.update (fun _ => none) (settingsIn projectDir) (some oldContent)

theorem settingsPath_projectCommand (uninstall : Bool) :
    settingsPath firstSecond (projectCommand uninstall) = settingsIn projectDir := rfl


theorem oldContent_ne : oldContent ≠ emptiedContent := by
  decide +kernel

theorem loadsOld_emptied : loadsOld emptiedContent = .ok (.obj []) := by
  unfold loadsOld
  rw [if_neg oldContent_ne.symm, if_pos rfl]

theorem loadsOld_oldContent : loadsOld oldContent = .ok oldSettings :=
  if_pos rfl

/-- What loading comes to on a machine with that settings file. -/
theorem load_firstSecond {files : Files} {content : Bytes} {data : Json}
    {uninstall : Bool}
    (hfile : files (settingsPath firstSecond (projectCommand uninstall)) = some content)
    (hdata : loadsOld content = .ok data) :
    load firstSecond files (settingsPath firstSecond (projectCommand uninstall)) = .ok data := by
  unfold load
  rw [hfile]
  dsimp only
  rw [show firstSecond.loads content = .ok data from hdata]

theorem oldFiles_settings (uninstall : Bool) :
    oldFiles (settingsPath firstSecond (projectCommand uninstall)) = some oldContent := by
  rw [settingsPath_projectCommand]
  exact Function.update_self ..

theorem oldFiles_backup (stamp : String) :
    oldFiles (backupPath (settingsIn projectDir) stamp) = none :=
  Function.update_of_ne (backupPath_ne_settings projectDir projectDir stamp) ..

/-- The uninstallation leaves empty settings. -/
theorem pending_uninstall :
    pendingUpdate firstSecond (projectCommand true) oldFiles = some (.obj []) := by
  unfold pendingUpdate
  rw [load_firstSecond (oldFiles_settings true) loadsOld_oldContent]
  dsimp only
  rw [show buildUpdatedSettings firstSecond.repr oldSettings (projectCommand true).emitterPath
    (!(projectCommand true).uninstall) = .ok (.obj []) from rfl]
  rfl

/-- The installation that follows has something to write. -/
theorem pending_install {files : Files}
    (h : files (settingsPath firstSecond (projectCommand false)) = some emptiedContent) :
    ∃ updated, pendingUpdate firstSecond (projectCommand false) files = some updated := by
  have hload := load_firstSecond h loadsOld_emptied
  have hbuild : buildUpdatedSettings firstSecond.repr (.obj []) (projectCommand false).emitterPath
      (!(projectCommand false).uninstall) =
        .ok (.obj [("hooks", .obj (targetHookEvents.map fun event =>
          (event, .arr [ourGroup "claude-vo-emit"])))]) := rfl
  refine ⟨.obj [("hooks", .obj (targetHookEvents.map fun event =>
    (event, .arr [ourGroup "claude-vo-emit"])))], ?_⟩
  unfold pendingUpdate
  rw [hload]
  dsimp only
  rw [hbuild]
  rfl

/-- An uninstallation, and an installation half a second later. -/
theorem backup_overwritten :
    ¬ ∀ (platform : Platform) (files : Files) (runs : List (Command × ℚ)),
      (runs.map Prod.snd).Pairwise (· ≤ ·) → (historyOf platform files runs).Backed := by
  intro hclaim
  have hsettings := @settings_run firstSecond (projectCommand true) 0 ⟨oldFiles, []⟩ (.obj [])
    (indented 0 (.obj [])) pending_uninstall rfl
  rw [settingsPath_projectCommand] at hsettings
  obtain ⟨updated, hpending⟩ := @pending_install
    (run firstSecond (projectCommand true) 0 ⟨oldFiles, []⟩).2.files
    ((congrArg _ (settingsPath_projectCommand false)).trans hsettings)
  have hboth := hclaim firstSecond oldFiles
    [(projectCommand true, 0), (projectCommand false, 1 / 2)] (by decide +kernel)
  have hsecond : stampOf firstSecond (1 / 2) = stampOf firstSecond 0 := rfl
  exact not_backed_of_one_second pending_uninstall rfl (oldFiles_settings true) oldContent_ne
    hpending rfl hsecond oldFiles_backup hboth

end Installer
end SiliconOffice
