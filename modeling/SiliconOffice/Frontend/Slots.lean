import SiliconOffice.Frontend.Layout

/-!
# Which slots `sync` leaves to whom

`sync` releases the slots of the sessions that are gone and then hands out slots to the
new ones, in whatever order Python walks through the two sets.  The order shows in which
slot a new session gets and in nothing else:

* `has_sync` — the sessions with a slot are exactly the ids given;
* `slot_sync` — whoever stays keeps its slot;
* `sync_of_held` — when nobody comes or goes, nothing changes at all.
-/

namespace SiliconOffice
namespace Frontend

open Library Python

namespace Layout

variable {layout : Layout} {key : DictKey} {slot : Nat}

/-! ## Releasing -/

theorem slot_releaseSlot (layout : Layout) (sid key : DictKey) :
    (layout.releaseSlot sid).slotOfSession.get? key =
      if key == sid then none else layout.slotOfSession.get? key := by
  unfold releaseSlot
  cases hslot : layout.slotOfSession.get? sid with
  | some slot => exact OrderedDict.get?_discard ..
  | none =>
      dsimp only
      split
      · rename_i hsame
        rw [layout.slotOfSession.get?_congr hsame, hslot]
      · rfl

theorem slot_foldl_releaseSlot (sids : List DictKey) (layout : Layout) (key : DictKey) :
    (sids.foldl releaseSlot layout).slotOfSession.get? key =
      if sids.contains key then none else layout.slotOfSession.get? key := by
  induction sids generalizing layout with
  | nil => rfl
  | cons sid rest ih =>
      rw [List.foldl_cons, ih, slot_releaseSlot, List.contains_cons]
      cases key == sid <;> cases rest.contains key <;> rfl

theorem has_foldl_releaseSlot (sids : List DictKey) (layout : Layout) (key : DictKey) :
    (sids.foldl releaseSlot layout).slotOfSession.has key =
      (layout.slotOfSession.has key && !sids.contains key) := by
  rw [OrderedDict.has, slot_foldl_releaseSlot, OrderedDict.has]
  cases sids.contains key <;> cases layout.slotOfSession.get? key <;> rfl

/-! ## Assigning -/

theorem has_assignSlot (layout : Layout) (sid key : DictKey) :
    (layout.assignSlot sid).slotOfSession.has key =
      (key == sid || layout.slotOfSession.has key) := by
  unfold assignSlot
  by_cases hheld : layout.slotOfSession.has sid = true
  · rw [if_pos hheld]
    cases hsame : key == sid with
    | false => rfl
    | true => rw [layout.slotOfSession.has_congr hsame, hheld, Bool.true_or]
  · rw [if_neg hheld]
    split <;> exact OrderedDict.has_store ..

/-- Whoever has a slot is passed over. -/
theorem slot_assignSlot (h : layout.slotOfSession.get? key = some slot) (sid : DictKey) :
    (layout.assignSlot sid).slotOfSession.get? key = some slot := by
  unfold assignSlot
  by_cases hheld : layout.slotOfSession.has sid = true
  · rw [if_pos hheld]
    exact h
  · rw [if_neg hheld]
    have hother : (key == sid) = false := by
      refine eq_false_of_ne_true fun hsame => hheld ?_
      rw [← layout.slotOfSession.has_congr hsame, OrderedDict.has, h]
      rfl
    split <;> (dsimp only; rw [OrderedDict.get?_store, hother]; exact h)

theorem has_foldl_assignSlot (sids : List DictKey) (layout : Layout) (key : DictKey) :
    (sids.foldl assignSlot layout).slotOfSession.has key =
      (sids.contains key || layout.slotOfSession.has key) := by
  induction sids generalizing layout with
  | nil => rfl
  | cons sid rest ih =>
      rw [List.foldl_cons, ih, has_assignSlot, List.contains_cons]
      cases key == sid <;> cases rest.contains key <;> rfl

theorem slot_foldl_assignSlot (h : layout.slotOfSession.get? key = some slot)
    (sids : List DictKey) :
    (sids.foldl assignSlot layout).slotOfSession.get? key = some slot := by
  induction sids generalizing layout with
  | nil => exact h
  | cons sid rest ih => exact ih (slot_assignSlot h sid)

/-! ## Synchronising -/

/-- What `sync` releases: the sessions with a slot that are not among the ids. -/
theorem contains_departed (order : SetOrder) (sessionIds : List DictKey) (layout : Layout)
    (key : DictKey) :
    (order.iterate layout (layout.slotOfSession.keys.filter
        fun sid => !sessionIds.contains sid)).contains key =
      (layout.slotOfSession.has key && !sessionIds.contains key) := by
  rw [(order.perm _ _).contains_eq,
    contains_filter (fun a b hab => by rw [contains_congr hab sessionIds]),
    OrderedDict.contains_keys]

/-- What `sync` assigns: the ids without a slot. -/
theorem contains_arrived (order : SetOrder) (sessionIds : List DictKey)
    (layout between : Layout) (key : DictKey) :
    (order.iterate between (sessionIds.filter
        fun sid => !layout.slotOfSession.keys.contains sid)).contains key =
      (sessionIds.contains key && !layout.slotOfSession.has key) := by
  rw [(order.perm _ _).contains_eq,
    contains_filter (fun a b hab => by rw [contains_congr hab layout.slotOfSession.keys]),
    OrderedDict.contains_keys]

/-- **The sessions with a slot are the ids given.** -/
theorem has_sync (order : SetOrder) (sessionIds : List DictKey) (layout : Layout)
    (key : DictKey) :
    (layout.sync order sessionIds).slotOfSession.has key = sessionIds.contains key := by
  unfold sync recomputeGrid
  dsimp only
  rw [has_foldl_assignSlot, contains_arrived, has_foldl_releaseSlot, contains_departed]
  cases sessionIds.contains key <;> cases layout.slotOfSession.has key <;> rfl

/-- **Whoever stays keeps its slot.** -/
theorem slot_sync (order : SetOrder) {sessionIds : List DictKey}
    (h : layout.slotOfSession.get? key = some slot) (hkey : sessionIds.contains key = true) :
    (layout.sync order sessionIds).slotOfSession.get? key = some slot := by
  unfold sync recomputeGrid
  dsimp only
  refine slot_foldl_assignSlot ?_ _
  rw [slot_foldl_releaseSlot, contains_departed, hkey, Bool.not_true, Bool.and_false]
  exact h

/-- **Nothing moves when the ids are those with a slot.** -/
theorem sync_of_held (order : SetOrder) {sessionIds : List DictKey}
    (h : ∀ key, layout.slotOfSession.has key = sessionIds.contains key) :
    layout.sync order sessionIds = layout.recomputeGrid := by
  have hdeparted : (layout.slotOfSession.keys.filter fun sid => !sessionIds.contains sid) = [] := by
    refine List.filter_eq_nil_iff.mpr fun sid hsid => ?_
    rw [← h, OrderedDict.has_of_mem_keys hsid]
    exact Bool.noConfusion
  have harrived : (sessionIds.filter fun sid => !layout.slotOfSession.keys.contains sid) = [] := by
    refine List.filter_eq_nil_iff.mpr fun sid hsid => ?_
    have hgiven : sessionIds.contains sid = true := List.elem_eq_true_of_mem hsid
    rw [OrderedDict.contains_keys, h, hgiven]
    exact Bool.noConfusion
  unfold sync
  dsimp only
  rw [hdeparted, harrived, (order.perm _ []).eq_nil, List.foldl_nil, (order.perm _ []).eq_nil,
    List.foldl_nil]

end Layout

end Frontend
end SiliconOffice
