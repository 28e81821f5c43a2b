import Mathlib.Data.Rat.Floor
import Mathlib.Tactic.Linarith
import Mathlib.Tactic.NormNum
import SiliconOffice.Frontend.Slots
import SiliconOffice.Library.Pool

/-!
# Slots and desks over a whole history of calls

The slots are a `Pool`: `assignSlot` takes a number out of it, `releaseSlot` puts one back.
What a sequence of `sync` calls comes to follows from that, whatever the order of the sets:

* `nextSlot_sync` — one call makes the pool as large as the ids need, and no larger;
* `arranged_of_calls` — what the slots are after each call;
* `wellPlaced_of_calls` — where the desks are.
-/

namespace SiliconOffice
namespace Frontend

open Library Python

/-- A Python set of session ids, in the order in which it was built. -/
structure SessionIds where
  ids : List DictKey
  distinct : ids.Pairwise fun a b => (a == b) = false

/-- A call of `sync`. -/
structure SyncCall where
  order : SetOrder
  sessionIds : SessionIds

namespace Layout

/-- The layout after these calls. -/
def afterCalls (calls : List SyncCall) : Layout :=
  calls.foldl (fun layout call => layout.sync call.order call.sessionIds.ids) initial

/-- The largest number of ids in any of the calls. -/
def peak (calls : List SyncCall) : Nat :=
  (calls.map fun call => call.sessionIds.ids.length).foldl max 0

/-- What the layout knows about slots apart from who has them. -/
def pool (layout : Layout) : Pool where
  free := layout.freeSlots
  next := layout.nextSlot

/-- Every slot below `nextSlot` is held by one session or is free, and not twice. -/
def Shared (layout : Layout) : Prop :=
  layout.pool.Shares layout.slotOfSession.values

variable {layout : Layout} {sid key : DictKey} {slot : Nat}

/-! ## The pool of slots -/

/-- A new session takes a slot out of the pool. -/
theorem assignSlot_eq (h : layout.slotOfSession.get? sid = none) :
    layout.assignSlot sid =
      { layout with
        slotOfSession := layout.slotOfSession.store sid layout.pool.take.1
        freeSlots := layout.pool.take.2.free
        nextSlot := layout.pool.take.2.next } := by
  have hheld : layout.slotOfSession.has sid = false := by
    rw [OrderedDict.has, h]
    rfl
  unfold assignSlot pool Pool.take
  rw [if_neg (ne_true_of_eq_false hheld)]
  cases hfree : layout.freeSlots with
  | nil => rfl
  | cons slot rest => rfl

theorem assignSlot_of_held (h : layout.slotOfSession.get? sid = some slot) :
    layout.assignSlot sid = layout := by
  unfold assignSlot
  rw [if_pos (by rw [OrderedDict.has, h]; rfl)]

/-- A session that goes gives its slot back. -/
theorem releaseSlot_eq (h : layout.slotOfSession.get? sid = some slot) :
    layout.releaseSlot sid =
      { layout with
        slotOfSession := layout.slotOfSession.discard sid
        freeSlots := (layout.pool.giveBack slot).free } := by
  unfold releaseSlot
  rw [h]
  rfl

theorem releaseSlot_of_absent (h : layout.slotOfSession.get? sid = none) :
    layout.releaseSlot sid = layout := by
  unfold releaseSlot
  rw [h]

theorem Shared.releaseSlot (h : Shared layout) (sid : DictKey) :
    Shared (layout.releaseSlot sid) := by
  cases hslot : layout.slotOfSession.get? sid with
  | none =>
      rw [releaseSlot_of_absent hslot]
      exact h
  | some slot =>
      rw [releaseSlot_eq hslot]
      exact Pool.Shares.giveBack (h.perm (OrderedDict.values_discard hslot).symm)

@[simp] theorem nextSlot_releaseSlot (layout : Layout) (sid : DictKey) :
    (layout.releaseSlot sid).nextSlot = layout.nextSlot := by
  unfold releaseSlot
  split <;> rfl

theorem Shared.foldl_releaseSlot (h : Shared layout) (sids : List DictKey) :
    Shared (sids.foldl Layout.releaseSlot layout) ∧
      (sids.foldl Layout.releaseSlot layout).nextSlot = layout.nextSlot := by
  induction sids generalizing layout with
  | nil => exact ⟨h, rfl⟩
  | cons sid rest ih =>
      obtain ⟨hshared, hnext⟩ := ih (h.releaseSlot sid)
      exact ⟨hshared, hnext.trans (nextSlot_releaseSlot layout sid)⟩

/-- The slots are shared, and there are no more than there were, or than are held. -/
structure Growing (start : Nat) (layout : Layout) : Prop where
  shared : Shared layout
  next : layout.nextSlot = max start layout.slotOfSession.values.length

theorem Shared.growing (h : Shared layout) : Growing layout.nextSlot layout :=
  ⟨h, (max_eq_left h.length_le).symm⟩

theorem Growing.assignSlot {start : Nat} (h : Growing start layout) (sid : DictKey) :
    Growing start (layout.assignSlot sid) := by
  cases hslot : layout.slotOfSession.get? sid with
  | some slot =>
      rw [assignSlot_of_held hslot]
      exact h
  | none =>
      rw [assignSlot_eq hslot]
      have hvalues := OrderedDict.values_store_of_get?_none hslot layout.pool.take.1
      constructor
      · show layout.pool.take.2.Shares (layout.slotOfSession.store sid layout.pool.take.1).values
        rw [hvalues]
        exact h.shared.take.perm (List.perm_append_singleton _ _)
      · show layout.pool.take.2.next = max start (layout.slotOfSession.store sid _).values.length
        rw [hvalues, h.shared.next_take, List.length_append, List.length_singleton]
        show max layout.nextSlot _ = _
        rw [h.next]
        omega

theorem Growing.foldl_assignSlot {start : Nat} (h : Growing start layout) (sids : List DictKey) :
    Growing start (sids.foldl Layout.assignSlot layout) := by
  induction sids generalizing layout with
  | nil => exact h
  | cons sid rest ih => exact ih (h.assignSlot sid)

theorem length_values (layout : Layout) :
    layout.slotOfSession.values.length = layout.slotOfSession.keys.length := by
  rw [OrderedDict.values, OrderedDict.keys, List.length_map, List.length_map]

theorem Shared.sync (h : Shared layout) (order : SetOrder) (sessionIds : List DictKey) :
    Growing layout.nextSlot (layout.sync order sessionIds) := by
  obtain ⟨hshared, hnext⟩ := h.foldl_releaseSlot (order.iterate layout
    (layout.slotOfSession.keys.filter fun sid => !sessionIds.contains sid))
  have hgrowing := hshared.growing
  rw [hnext] at hgrowing
  have hassigned := hgrowing.foldl_assignSlot
  exact ⟨(hassigned _).shared, (hassigned _).next⟩

/-- **A call makes the pool as large as the ids need, and no larger.** -/
theorem nextSlot_sync (h : Shared layout) (order : SetOrder) (sessionIds : SessionIds) :
    (layout.sync order sessionIds.ids).nextSlot =
      max layout.nextSlot sessionIds.ids.length := by
  have hlength : (layout.sync order sessionIds.ids).slotOfSession.keys.length =
      sessionIds.ids.length := by
    refine length_eq_of_contains (OrderedDict.distinct_keys _) sessionIds.distinct fun key => ?_
    rw [OrderedDict.contains_keys, has_sync]
  rw [(h.sync order sessionIds.ids).next, length_values, hlength]

/-! ## Histories -/

/-- The slots after a call for these ids, when this is the most there have been at a time. -/
structure Arranged (sessionIds : SessionIds) (most : Nat) (layout : Layout) : Prop where
  held : ∀ key, layout.slotOfSession.has key = sessionIds.ids.contains key
  apart : ∀ key other slot, layout.slotOfSession.get? key = some slot →
    layout.slotOfSession.get? other = some slot → (key == other) = true
  partition : (layout.slotOfSession.values ++ layout.freeSlots).Perm
    (List.range layout.nextSlot)
  most : layout.nextSlot = most
  rows : layout.rows = max 1 layout.nextSlot

theorem afterCalls_concat (calls : List SyncCall) (call : SyncCall) :
    afterCalls (calls ++ [call]) = (afterCalls calls).sync call.order call.sessionIds.ids :=
  List.foldl_concat ..

theorem peak_concat (calls : List SyncCall) (call : SyncCall) :
    peak (calls ++ [call]) = max (peak calls) call.sessionIds.ids.length := by
  unfold peak
  rw [List.map_append, List.map_singleton, List.foldl_concat]

/-- What holds after any number of calls. -/
structure Kept (calls : List SyncCall) (layout : Layout) : Prop where
  shared : Shared layout
  most : layout.nextSlot = peak calls
  rows : layout.rows = max 1 layout.nextSlot

theorem kept_afterCalls (calls : List SyncCall) : Kept calls (afterCalls calls) := by
  induction calls using List.reverseRecOn with
  | nil => exact ⟨Pool.shares_empty, rfl, rfl⟩
  | append_singleton earlier call ih =>
      rw [afterCalls_concat]
      refine ⟨(ih.shared.sync call.order call.sessionIds.ids).shared, ?_, rfl⟩
      rw [nextSlot_sync ih.shared, ih.most, peak_concat]

/-- **Slots after every call.**  Whatever the calls and the order of the sets, the ids given
have a slot each, the pool is as large as the most ids so far, and whoever is given again
keeps its slot. -/
theorem arranged_of_calls (earlier : List SyncCall) (call : SyncCall) :
    Arranged call.sessionIds (peak (earlier ++ [call])) (afterCalls (earlier ++ [call])) ∧
      ∀ next : SyncCall, ∀ key, call.sessionIds.ids.contains key = true →
        next.sessionIds.ids.contains key = true →
        (afterCalls (earlier ++ [call, next])).slotOfSession.get? key =
          (afterCalls (earlier ++ [call])).slotOfSession.get? key := by
  have hkept := kept_afterCalls (earlier ++ [call])
  have hheld : ∀ key, (afterCalls (earlier ++ [call])).slotOfSession.has key =
      call.sessionIds.ids.contains key := by
    intro key
    rw [afterCalls_concat]
    exact has_sync ..
  refine ⟨⟨hheld, fun key other slot hkey hother => ?_, hkept.shared, hkept.most, hkept.rows⟩,
    fun next key hkey hnext => ?_⟩
  · exact OrderedDict.beq_of_get?_eq hkept.shared.nodup hkey hother
  · obtain ⟨slot, hslot⟩ := Option.isSome_iff_exists.mp ((hheld key).trans hkey)
    rw [hslot, List.append_cons, afterCalls_concat]
    exact slot_sync next.order hslot hnext

end Layout

/-! ## Truncation -/

theorem intOf_eq_floor {value : ℚ} (h : 0 ≤ value) : intOf value = ⌊value⌋ := by
  rw [intOf, Rat.floor_def', Int.tdiv_eq_ediv_of_nonneg (Rat.num_nonneg.mpr h)]

/-- Truncation keeps a distance that is an integer. -/
theorem intOf_add_le {value other : ℚ} {distance : Int} (hvalue : 0 ≤ value)
    (hother : 0 ≤ other) (h : value + distance ≤ other) :
    intOf value + distance ≤ intOf other := by
  rw [intOf_eq_floor hvalue, intOf_eq_floor hother, ← Int.floor_add_intCast]
  exact Int.floor_le_floor h

theorem intOf_add_le_int {value : ℚ} {distance limit : Int} (hvalue : 0 ≤ value)
    (h : value + distance ≤ limit) : intOf value + distance ≤ limit := by
  have hfloor := Int.floor_le value
  rw [intOf_eq_floor hvalue]
  exact_mod_cast (add_le_add_left hfloor _).trans h

theorem intOf_nonneg {value : ℚ} (h : 0 ≤ value) : 0 ≤ intOf value := by
  rw [intOf_eq_floor h]
  exact Int.floor_nonneg.mpr h

namespace Rect

/-- The pixel belongs to the rectangle. -/
def Covers (rect : Rect) (x y : Int) : Prop :=
  rect.left ≤ x ∧ x < rect.right ∧ rect.top ≤ y ∧ y < rect.bottom

/-- Two rectangles intersect. -/
def Meets (rect other : Rect) : Prop :=
  ∃ x y, rect.Covers x y ∧ other.Covers x y

theorem not_meets_of_above {rect other : Rect} (h : rect.bottom ≤ other.top) :
    ¬ rect.Meets other ∧ ¬ other.Meets rect := by
  constructor
  · rintro ⟨x, y, ⟨-, -, -, hbottom⟩, -, -, htop, -⟩
    omega
  · rintro ⟨x, y, ⟨-, -, htop, -⟩, -, -, -, hbottom⟩
    omega

end Rect

namespace Layout

variable {layout : Layout} {key other : DictKey} {slot slot' : Nat} {w h : Int}

/-! ## The column of desks -/

theorem pitch_ge (layout : Layout) (h : Int) : 204 ≤ layout.pitch h := by
  unfold pitch deskHeight deskMinGap
  exact le_max_of_le_left (by norm_num)

/-- The rows fill no more than the window when the smallest gaps do not. -/
theorem pitch_mul_rows_le (hrows : 0 < layout.rows)
    (hfits : layout.rows * (deskHeight + deskMinGap) ≤ h) :
    layout.pitch h * layout.rows ≤ h := by
  have hpositive : (0 : ℚ) < layout.rows := by exact_mod_cast hrows
  have hleast : ((deskHeight : ℚ) + deskMinGap) * layout.rows ≤ h := by
    rw [mul_comm]
    exact_mod_cast hfits
  rw [← le_div_iff₀ hpositive] at hleast ⊢
  exact max_le hleast (min_le_right _ _)

theorem deskY_nonneg (layout : Layout) (h : Int) (slot : Nat) : 0 ≤ layout.deskY h slot := by
  have hpitch := layout.pitch_ge h
  have hoffset : (0 : ℚ) ≤ max 0 ((h - layout.pitch h * layout.rows) / 2) := le_max_left _ _
  have hslot : (0 : ℚ) ≤ slot * layout.pitch h := by positivity
  unfold deskY deskHeight
  push_cast
  linarith

/-- The next desk starts below the end of this one. -/
theorem deskY_add_le (layout : Layout) (h : Int) (hslot : slot < slot') :
    layout.deskY h slot + deskHeight ≤ layout.deskY h slot' := by
  have hpitch := layout.pitch_ge h
  have hstep : ((slot : ℚ) + 1) * layout.pitch h ≤ slot' * layout.pitch h := by
    gcongr
    exact_mod_cast hslot
  unfold deskY deskHeight
  push_cast
  linarith

/-- The last desk ends inside the window when the rows fit. -/
theorem deskY_add_le_height (hslot : slot < layout.rows)
    (hfits : layout.rows * (deskHeight + deskMinGap) ≤ h) :
    layout.deskY h slot + deskHeight ≤ h := by
  have hpitch := layout.pitch_ge h
  have htotal := pitch_mul_rows_le (Nat.zero_lt_of_lt hslot) hfits
  have hstep : ((slot : ℚ) + 1) * layout.pitch h ≤ layout.rows * layout.pitch h := by
    gcongr
    exact_mod_cast hslot
  unfold deskY deskHeight
  dsimp only
  rw [max_eq_right (by linarith)]
  push_cast
  linarith

theorem deskX_nonneg (w : Int) : 0 ≤ deskX w := by
  have hcell : ((min w deskMaxWidth : Int) : ℚ) ≤ w := by exact_mod_cast min_le_left _ _
  unfold deskX deskMargin
  push_cast at hcell ⊢
  linarith

theorem deskX_add_le (w : Int) :
    deskX w + (min w deskMaxWidth - deskMargin : Int) ≤ w := by
  have hcell : ((min w deskMaxWidth : Int) : ℚ) ≤ w := by exact_mod_cast min_le_left _ _
  unfold deskX deskMargin
  push_cast at hcell ⊢
  linarith

/-! ## Rectangles -/

/-- No two desks meet, they stand in the order of their slots, and they stay in the window:
across always, above always, below when the rows fit with the smallest gap. -/
structure WellPlaced (layout : Layout) (w h : Int) : Prop where
  placed : ∀ key, (layout.deskRect key (w, h)).isSome = layout.slotOfSession.has key
  apart : ∀ key other rect rect', layout.deskRect key (w, h) = some rect →
    layout.deskRect other (w, h) = some rect' → (key == other) = false → ¬ rect.Meets rect'
  ordered : ∀ key other slot slot' rect rect', layout.slotOfSession.get? key = some slot →
    layout.slotOfSession.get? other = some slot' → slot < slot' →
    layout.deskRect key (w, h) = some rect → layout.deskRect other (w, h) = some rect' →
    rect.bottom ≤ rect'.top
  across : ∀ key rect, layout.deskRect key (w, h) = some rect →
    0 ≤ rect.left ∧ rect.left < rect.right ∧ rect.right ≤ w
  above : ∀ key rect, layout.deskRect key (w, h) = some rect → 0 ≤ rect.top
  below : layout.rows * (deskHeight + deskMinGap) ≤ h →
    ∀ key rect, layout.deskRect key (w, h) = some rect → rect.bottom ≤ h

theorem deskRect_eq_some_iff {rect : Rect} :
    layout.deskRect key (w, h) = some rect ↔
      ∃ slot, layout.slotOfSession.get? key = some slot ∧
        ⟨intOf (deskX w), intOf (layout.deskY h slot), min w deskMaxWidth - deskMargin,
          deskHeight⟩ = rect :=
  Option.map_eq_some_iff

theorem bottom_le_top {rect rect' : Rect} (hslot : layout.slotOfSession.get? key = some slot)
    (hslot' : layout.slotOfSession.get? other = some slot') (hlt : slot < slot')
    (hrect : layout.deskRect key (w, h) = some rect)
    (hrect' : layout.deskRect other (w, h) = some rect') : rect.bottom ≤ rect'.top := by
  obtain ⟨_, hsame, rfl⟩ := deskRect_eq_some_iff.mp hrect
  obtain ⟨_, hsame', rfl⟩ := deskRect_eq_some_iff.mp hrect'
  obtain rfl := Option.some.inj (hslot.symm.trans hsame)
  obtain rfl := Option.some.inj (hslot'.symm.trans hsame')
  exact intOf_add_le (layout.deskY_nonneg h _) (layout.deskY_nonneg h _)
    (layout.deskY_add_le h hlt)

/-- **Desks never overlap and fit when they can.**  After any calls, in every window that is
wider than the margin. -/
theorem wellPlaced_of_calls (calls : List SyncCall) (w h : Int) (hwidth : deskMargin < w) :
    WellPlaced (afterCalls calls) w h := by
  have hkept := kept_afterCalls calls
  generalize afterCalls calls = layout at hkept
  constructor
  case placed =>
    intro key
    rw [deskRect, Option.isSome_map, OrderedDict.has]
  case ordered =>
    intro key other slot slot' rect rect' hslot hslot' hlt hrect hrect'
    exact bottom_le_top hslot hslot' hlt hrect hrect'
  case apart =>
    intro key other rect rect' hrect hrect' hdifferent
    obtain ⟨slot, hslot, -⟩ := deskRect_eq_some_iff.mp hrect
    obtain ⟨slot', hslot', -⟩ := deskRect_eq_some_iff.mp hrect'
    rcases lt_trichotomy slot slot' with hlt | rfl | hgt
    · exact (Rect.not_meets_of_above (bottom_le_top hslot hslot' hlt hrect hrect')).1
    · have hsame := OrderedDict.beq_of_get?_eq hkept.shared.nodup hslot hslot'
      rw [hdifferent] at hsame
      cases hsame
    · exact (Rect.not_meets_of_above (bottom_le_top hslot' hslot hgt hrect' hrect)).2
  case across =>
    intro key rect hrect
    obtain ⟨slot, -, rfl⟩ := deskRect_eq_some_iff.mp hrect
    refine ⟨intOf_nonneg (deskX_nonneg w), ?_, intOf_add_le_int (deskX_nonneg w) (deskX_add_le w)⟩
    unfold deskMargin at hwidth
    unfold Rect.right deskMaxWidth deskMargin
    dsimp only
    omega
  case above =>
    intro key rect hrect
    obtain ⟨slot, -, rfl⟩ := deskRect_eq_some_iff.mp hrect
    exact intOf_nonneg (layout.deskY_nonneg h slot)
  case below =>
    intro hfits key rect hrect
    obtain ⟨slot, hslot, rfl⟩ := deskRect_eq_some_iff.mp hrect
    have hlt : slot < layout.nextSlot := hkept.shared.lt (OrderedDict.mem_values hslot)
    have hrow : slot < layout.rows := by
      rw [hkept.rows]
      exact lt_max_of_lt_right hlt
    exact intOf_add_le_int (layout.deskY_nonneg h slot) (deskY_add_le_height hrow hfits)

/-! ### Two desks in the smallest window that holds them -/

def twoDesks : List SyncCall :=
  [⟨.asBuilt, ⟨[.str "s1", .str "s2"], by decide⟩⟩]

theorem wellPlaced_twoDesks :
    (afterCalls twoDesks).deskRect (.str "s1") (320, 408) = some ⟨14, 2, 292, 200⟩ ∧
      (afterCalls twoDesks).deskRect (.str "s2") (320, 408) = some ⟨14, 206, 292, 200⟩ ∧
      WellPlaced (afterCalls twoDesks) 320 408 :=
  ⟨by decide +kernel, by decide +kernel, wellPlaced_of_calls twoDesks 320 408 (by decide)⟩

end Layout

end Frontend
end SiliconOffice
