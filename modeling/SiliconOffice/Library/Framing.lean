import Mathlib.Data.List.Basic

/-!
# Separator-framed streams

A stream over an arbitrary alphabet is cut into frames by a separator.  The
whole-stream view is `List.splitOn`: all pieces but the last are complete
frames, the last piece is what is still open.  A receiver only ever sees chunks,
so the laws below say how the two views move together:

* `frames_of_not_mem`, `pending_of_not_mem` — no separator, nothing complete;
* `frames_cut`, `pending_cut` — one complete frame is taken off the front;
* `frames_append`, `pending_append` — a chunk only has to be read together with
  what is still open, never with what was already delivered;
* `frames_of_prefix` — a stream of frames that breaks off has closed the frames that
  arrived whole.

`frames_append` holds for every cut of the stream, so it is the only fact an
incremental receiver needs.  `stream_induction` is the induction all of them use.
-/

namespace SiliconOffice
namespace Library

variable {α : Type*} [BEq α] [LawfulBEq α]

omit [LawfulBEq α] in
/-- The frames of `stream` that a separator has closed. -/
noncomputable def frames (separator : α) (stream : List α) : List (List α) :=
  (stream.splitOn separator).dropLast

omit [LawfulBEq α] in
/-- What stands after the last separator of `stream`. -/
noncomputable def pending (separator : α) (stream : List α) : List α :=
  (stream.splitOn separator).getLast (List.splitOn_ne_nil separator stream)

theorem frames_of_not_mem {separator : α} {stream : List α} (h : separator ∉ stream) :
    frames separator stream = [] := by
  unfold frames
  rw [List.splitOn_eq_singleton h]
  rfl

theorem pending_of_not_mem {separator : α} {stream : List α} (h : separator ∉ stream) :
    pending separator stream = stream := by
  unfold pending
  simp only [List.splitOn_eq_singleton h]
  rfl

theorem frames_cut {separator : α} {frame : List α} (h : separator ∉ frame)
    (rest : List α) :
    frames separator (frame ++ separator :: rest) = frame :: frames separator rest := by
  unfold frames
  rw [List.splitOn_append_cons_self_of_not_mem h]
  exact List.dropLast_cons_of_ne_nil (List.splitOn_ne_nil separator rest)

theorem pending_cut {separator : α} {frame : List α} (h : separator ∉ frame)
    (rest : List α) :
    pending separator (frame ++ separator :: rest) = pending separator rest := by
  unfold pending
  simp only [List.splitOn_append_cons_self_of_not_mem h]
  exact List.getLast_cons (List.splitOn_ne_nil separator rest)

omit [BEq α] [LawfulBEq α] in
/-- Induction along the frames of a stream: one without a separator is all open,
every other one is a frame, a separator and a shorter stream. -/
@[elab_as_elim]
theorem stream_induction (separator : α) {motive : List α → Prop} (stream : List α)
    (opened : ∀ stream, separator ∉ stream → motive stream)
    (closed : ∀ frame rest, separator ∉ frame → motive rest →
      motive (frame ++ separator :: rest)) : motive stream := by
  by_cases hmem : separator ∈ stream
  · obtain ⟨frame, rest, hstream, hframe⟩ := List.eq_append_cons_of_mem hmem
    rw [hstream]
    exact closed frame rest hframe (stream_induction separator rest opened closed)
  · exact opened stream hmem
termination_by stream.length
decreasing_by
  rw [hstream, List.length_append, List.length_cons]
  omega

theorem not_mem_pending (separator : α) (stream : List α) :
    separator ∉ pending separator stream := by
  induction stream using stream_induction separator with
  | opened stream hstream => rwa [pending_of_not_mem hstream]
  | closed frame rest hframe ih => rwa [pending_cut hframe]

/-- **A stream may be cut anywhere.**  Frames already closed stay closed, and the
next chunk is read after what was left open. -/
theorem frames_append (separator : α) (stream chunk : List α) :
    frames separator (stream ++ chunk) =
      frames separator stream ++ frames separator (pending separator stream ++ chunk) := by
  induction stream using stream_induction separator with
  | opened stream hstream =>
      rw [frames_of_not_mem hstream, pending_of_not_mem hstream, List.nil_append]
  | closed frame rest hframe ih =>
      rw [List.append_assoc, List.cons_append, frames_cut hframe, frames_cut hframe,
        pending_cut hframe, ih, List.cons_append]

theorem pending_append (separator : α) (stream chunk : List α) :
    pending separator (stream ++ chunk) =
      pending separator (pending separator stream ++ chunk) := by
  induction stream using stream_induction separator with
  | opened stream hstream => rw [pending_of_not_mem hstream]
  | closed frame rest hframe ih =>
      rw [List.append_assoc, List.cons_append, pending_cut hframe, pending_cut hframe, ih]

/-- Two chunks, read one after the other behind the open rest of a stream. -/
theorem frames_chunks (separator : α) (stream chunk later : List α) :
    frames separator (pending separator stream ++ (chunk ++ later)) =
      frames separator (pending separator stream ++ chunk) ++
        frames separator (pending separator (stream ++ chunk) ++ later) := by
  rw [← List.append_assoc, frames_append, ← pending_append]

/-- A stream of closed frames is exactly those frames, with nothing left open. -/
theorem frames_closed {separator : α} {closed : List (List α)}
    (h : ∀ frame ∈ closed, separator ∉ frame) :
    frames separator (closed.flatMap fun frame => frame ++ [separator]) = closed := by
  induction closed with
  | nil => exact frames_of_not_mem List.not_mem_nil
  | cons frame rest ih =>
      rw [List.flatMap_cons, List.append_assoc, List.singleton_append,
        frames_cut (h frame List.mem_cons_self),
        ih fun other hother => h other (List.mem_cons_of_mem _ hother)]

theorem pending_closed {separator : α} {closed : List (List α)}
    (h : ∀ frame ∈ closed, separator ∉ frame) :
    pending separator (closed.flatMap fun frame => frame ++ [separator]) = [] := by
  induction closed with
  | nil => exact pending_of_not_mem List.not_mem_nil
  | cons frame rest ih =>
      rw [List.flatMap_cons, List.append_assoc, List.singleton_append,
        pending_cut (h frame List.mem_cons_self),
        ih fun other hother => h other (List.mem_cons_of_mem _ hother)]

/-! ## Streams that break off -/

/-- The items that fit into `length` one after the other. -/
def fitting {ι : Type*} (size : ι → Nat) : List ι → Nat → List ι
  | [], _ => []
  | item :: rest, length =>
      if size item ≤ length then item :: fitting size rest (length - size item) else []

/-- **A stream of frames may break off anywhere.**  The frames it closes are those whose
separator has arrived. -/
theorem frames_of_prefix {ι : Type*} {separator : α} {frame : ι → List α} {items : List ι}
    (h : ∀ item ∈ items, separator ∉ frame item) {stream : List α}
    (hinitial : stream <+: items.flatMap fun item => frame item ++ [separator]) :
    frames separator stream =
      (fitting (fun item => (frame item).length + 1) items stream.length).map frame := by
  induction items generalizing stream with
  | nil =>
      rw [List.flatMap_nil, List.prefix_nil] at hinitial
      rw [hinitial]
      exact frames_of_not_mem List.not_mem_nil
  | cons item rest ih =>
      have hitem := h item List.mem_cons_self
      rw [List.flatMap_cons] at hinitial
      unfold fitting
      split
      · rename_i hfits
        have hwhole : frame item ++ [separator] <+: stream :=
          List.prefix_of_prefix_length_le (List.prefix_append _ _) hinitial (by simpa using hfits)
        obtain ⟨later, rfl⟩ := hwhole
        have hlater := ih (fun other hother => h other (List.mem_cons_of_mem _ hother))
          ((List.prefix_append_right_inj _).mp hinitial)
        have hlength : (frame item ++ [separator] ++ later).length - ((frame item).length + 1) =
            later.length := by
          rw [List.length_append, List.length_append, List.length_singleton]
          omega
        rw [hlength, List.append_assoc, List.singleton_append, frames_cut hitem, hlater,
          List.map_cons]
      · rename_i hfits
        have hopen : stream <+: frame item :=
          List.prefix_of_prefix_length_le hinitial
            ((List.prefix_append _ _).trans (List.prefix_append _ _)) (by omega)
        rw [List.map_nil]
        exact frames_of_not_mem fun hmem => hitem (hopen.subset hmem)

end Library
end SiliconOffice
