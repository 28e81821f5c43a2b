import Mathlib.Data.List.Range

/-!
# A record behind a lock

One thread writes a record field by field while it holds a lock, others read it field by field
while they hold it.  Half of the time the record is half written; nobody ever sees that.

* `Locked.stands` — what the record is worth: it changes at one moment of a write only, when the
  lock is taken;
* `Locked.Tidy` — what is so whoever holds the lock, and is kept by every access;
* `Tidy.endRead` — a read returns what the record is worth.
-/

namespace SiliconOffice
namespace Library

variable {ν ρ : Type*}

/-- A record, and how it is written and read one field at a time. -/
structure Fields (ν ρ : Type*) where
  writes : ℕ
  /-- Copy one field of the source. -/
  write : ℕ → (source : ν) → ν → ν
  reads : ℕ
  read : ℕ → (source : ν) → ρ → ρ
  view : ν → ρ
  written : ∀ source target,
    (List.range writes).foldl (fun record index => write index source record) target = source
  copied : ∀ source seen,
    (List.range reads).foldl (fun seen index => read index source seen) seen = view source

/-- Who holds the lock, and how many fields are done. -/
inductive Holder (ν ρ : Type*)
  | free
  | writing (source : ν) (done : ℕ)
  | reading (seen : ρ) (done : ℕ)

def Holder.isWriting : Holder ν ρ → Bool
  | .writing _ _ => true
  | _ => false

/-- The record and its lock. -/
structure Locked (ν ρ : Type*) where
  value : ν
  holder : Holder ν ρ

namespace Locked

variable (fields : Fields ν ρ)

/-- Nobody has touched the record. -/
def fresh (value : ν) : Locked ν ρ := ⟨value, .free⟩

def beginWrite (source : ν) (locked : Locked ν ρ) : Option (Locked ν ρ) :=
  match locked.holder with
  | .free => some { locked with holder := .writing source 0 }
  | _ => none

def writeNext (locked : Locked ν ρ) : Option (Locked ν ρ) :=
  match locked.holder with
  | .writing source done =>
      if done < fields.writes then
        some ⟨fields.write done source locked.value, .writing source (done + 1)⟩
      else none
  | _ => none

def endWrite (locked : Locked ν ρ) : Option (Locked ν ρ) :=
  match locked.holder with
  | .writing _ done => if done = fields.writes then some { locked with holder := .free } else none
  | _ => none

/-- What is seen before the first read does not matter. -/
def beginRead (seen : ρ) (locked : Locked ν ρ) : Option (Locked ν ρ) :=
  match locked.holder with
  | .free => some { locked with holder := .reading seen 0 }
  | _ => none

def readNext (locked : Locked ν ρ) : Option (Locked ν ρ) :=
  match locked.holder with
  | .reading seen done =>
      if done < fields.reads then
        some { locked with holder := .reading (fields.read done locked.value seen) (done + 1) }
      else none
  | _ => none

/-- The lock is given back, and what was read is returned. -/
def endRead (locked : Locked ν ρ) : Option (ρ × Locked ν ρ) :=
  match locked.holder with
  | .reading seen done =>
      if done = fields.reads then some (seen, { locked with holder := .free }) else none
  | _ => none

/-! ## What the record is worth -/

/-- What the record is worth; one that is being written is worth what it will be. -/
def stands (locked : Locked ν ρ) : ν :=
  match locked.holder with
  | .writing source _ => source
  | _ => locked.value

/-- The fields that are done are done. -/
def Tidy (locked : Locked ν ρ) : Prop :=
  match locked.holder with
  | .free => True
  | .writing source done => done ≤ fields.writes ∧ ∃ before, locked.value =
      (List.range done).foldl (fun record index => fields.write index source record) before
  | .reading seen done => done ≤ fields.reads ∧ ∃ before, seen =
      (List.range done).foldl (fun seen index => fields.read index locked.value seen) before

variable {fields} {locked next : Locked ν ρ}

theorem tidy_fresh (value : ν) : Tidy fields (fresh value) :=
  trivial

theorem stands_of_not_writing (h : locked.holder.isWriting = false) :
    locked.stands = locked.value := by
  obtain ⟨value, holder⟩ := locked
  cases holder with
  | writing source done => cases h
  | _ => rfl

/-- The next state in the hands of the same, or of nobody. -/
structure Continues (fields : Fields ν ρ) (locked next : Locked ν ρ) : Prop where
  tidy : Tidy fields next
  stands : next.stands = locked.stands
  writing : next.holder.isWriting = locked.holder.isWriting

/-- The moment at which a write shows. -/
theorem Tidy.beginWrite {source : ν} (h : locked.beginWrite source = some next) :
    Tidy fields next ∧ next.stands = source ∧ next.holder.isWriting = true := by
  obtain ⟨value, holder⟩ := locked
  cases holder with
  | free =>
      cases h
      exact ⟨⟨Nat.zero_le _, value, rfl⟩, rfl, rfl⟩
  | writing source done => cases h
  | reading seen done => cases h

theorem Tidy.writeNext (htidy : Tidy fields locked) (h : locked.writeNext fields = some next) :
    Continues fields locked next := by
  obtain ⟨value, holder⟩ := locked
  cases holder with
  | free => cases h
  | writing source done =>
      obtain ⟨-, before, hvalue⟩ := htidy
      simp only [Locked.writeNext] at h
      split at h
      · rename_i hmore
        cases h
        refine ⟨⟨hmore, before, ?_⟩, rfl, rfl⟩
        rw [List.range_succ, List.foldl_concat, ← hvalue]
      · cases h
  | reading seen done => cases h

/-- When the lock is given back, the record is what it was worth. -/
theorem Tidy.endWrite (htidy : Tidy fields locked) (h : locked.endWrite fields = some next) :
    locked.holder.isWriting = true ∧ Tidy fields next ∧ next.stands = locked.stands ∧
      next.holder.isWriting = false := by
  obtain ⟨value, holder⟩ := locked
  cases holder with
  | free => cases h
  | writing source done =>
      obtain ⟨-, before, hvalue⟩ := htidy
      simp only [Locked.endWrite] at h
      split at h
      · rename_i hdone
        cases h
        refine ⟨rfl, trivial, ?_, rfl⟩
        subst hdone
        exact hvalue.trans (fields.written source before)
      · cases h
  | reading seen done => cases h

theorem Tidy.beginRead {seen : ρ} (h : locked.beginRead seen = some next) :
    Continues fields locked next := by
  obtain ⟨value, holder⟩ := locked
  cases holder with
  | free =>
      cases h
      exact ⟨⟨Nat.zero_le _, seen, rfl⟩, rfl, rfl⟩
  | writing source done => cases h
  | reading seen done => cases h

theorem Tidy.readNext (htidy : Tidy fields locked) (h : locked.readNext fields = some next) :
    Continues fields locked next := by
  obtain ⟨value, holder⟩ := locked
  cases holder with
  | free => cases h
  | writing source done => cases h
  | reading seen done =>
      obtain ⟨-, before, hseen⟩ := htidy
      simp only [Locked.readNext] at h
      split at h
      · rename_i hmore
        cases h
        refine ⟨⟨hmore, before, ?_⟩, rfl, rfl⟩
        dsimp only at hseen ⊢
        rw [List.range_succ, List.foldl_concat, ← hseen]
      · cases h

/-- **A read returns what the record is worth.** -/
theorem Tidy.endRead (htidy : Tidy fields locked) {seen : ρ}
    (h : locked.endRead fields = some (seen, next)) :
    seen = fields.view locked.stands ∧ Continues fields locked next := by
  obtain ⟨value, holder⟩ := locked
  cases holder with
  | free => cases h
  | writing source done => cases h
  | reading copied done =>
      obtain ⟨-, before, hseen⟩ := htidy
      simp only [Locked.endRead] at h
      split at h
      · rename_i hdone
        cases h
        refine ⟨?_, trivial, rfl, rfl⟩
        subst hdone
        exact hseen.trans (fields.copied value before)
      · cases h

/-- The one that writes can go on. -/
theorem Tidy.writer_goes_on (htidy : Tidy fields locked) {source : ν} {done : ℕ}
    (h : locked.holder = .writing source done) :
    (locked.writeNext fields).isSome ∨ (locked.endWrite fields).isSome := by
  obtain ⟨value, holder⟩ := locked
  cases h
  rcases Nat.lt_or_eq_of_le htidy.1 with hmore | hdone
  · exact .inl (by simp [Locked.writeNext, hmore])
  · exact .inr (by simp [Locked.endWrite, hdone])

/-- The one that reads can go on. -/
theorem Tidy.reader_goes_on (htidy : Tidy fields locked) {seen : ρ} {done : ℕ}
    (h : locked.holder = .reading seen done) :
    (locked.readNext fields).isSome ∨ (locked.endRead fields).isSome := by
  obtain ⟨value, holder⟩ := locked
  cases h
  rcases Nat.lt_or_eq_of_le htidy.1 with hmore | hdone
  · exact .inl (by simp [Locked.readNext, hmore])
  · exact .inr (by simp [Locked.endRead, hdone])

end Locked

end Library
end SiliconOffice
