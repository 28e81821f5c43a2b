import Mathlib.Data.List.Basic
import Mathlib.Data.List.Nodup
import Mathlib.Data.List.Pairwise

/-!
# Insertion-ordered dictionaries

An association list that behaves like a dictionary which remembers insertion
order: storing under a present key keeps the key's position (and the key object
first stored), storing under an absent key appends, deleting removes.

Keys are compared with `==`, which is only assumed to be an equivalence.  Two
keys may be equal for the dictionary without being the same value, so the
theory is stated with `EquivBEq` and never with `LawfulBEq`.

* `Assoc.store` / `Assoc.discard` — the operations on plain association lists;
* `OrderedDict` — association lists whose keys are pairwise different, with the
  invariant as a field;
* `OrderedDict.get?_store`, `OrderedDict.get?_discard` — the two lookup laws from
  which everything else about contents follows;
* `OrderedDict.get?_eq_some_iff` — iterating over the items and looking keys up
  tell the same story;
* `OrderedDict.has_store`, `OrderedDict.has_discard`, `OrderedDict.contains_keys` — the
  same for membership alone;
* `OrderedDict.values_store_of_get?_none`, `OrderedDict.values_discard` — which value comes
  and which one goes.
-/

namespace SiliconOffice
namespace Library

variable {κ : Type*} {ν : Type*}

/-! ## Plain association lists -/

namespace Assoc

variable [BEq κ]

/-- Replace the value of the first entry with an equal key, or append. -/
def store (key : κ) (value : ν) : List (κ × ν) → List (κ × ν)
  | [] => [(key, value)]
  | entry :: rest =>
      if entry.1 == key then (entry.1, value) :: rest
      else entry :: store key value rest

/-- Drop every entry with an equal key. -/
def discard (key : κ) (entries : List (κ × ν)) : List (κ × ν) :=
  entries.filter fun entry => !(entry.1 == key)

theorem store_cons_same {key : κ} {entry : κ × ν} (h : (entry.1 == key) = true) (value : ν)
    (rest : List (κ × ν)) : store key value (entry :: rest) = (entry.1, value) :: rest :=
  if_pos h

theorem store_cons_other {key : κ} {entry : κ × ν} (h : ¬ (entry.1 == key) = true) (value : ν)
    (rest : List (κ × ν)) :
    store key value (entry :: rest) = entry :: store key value rest :=
  if_neg h

theorem lookup_cons_ite (a : κ) (entry : κ × ν) (rest : List (κ × ν)) :
    (entry :: rest).lookup a = if a == entry.1 then some entry.2 else rest.lookup a := by
  change (match a == entry.1 with | true => some entry.2 | false => rest.lookup a) = _
  cases a == entry.1 <;> rfl

theorem lookup_congr [PartialEquivBEq κ] {a b : κ} (hab : (a == b) = true)
    (entries : List (κ × ν)) : entries.lookup a = entries.lookup b := by
  induction entries with
  | nil => rfl
  | cons entry rest ih =>
      have hhead : (a == entry.1) = (b == entry.1) := BEq.congr_left hab
      rw [lookup_cons_ite, lookup_cons_ite, hhead, ih]

theorem lookup_store [EquivBEq κ] (key a : κ) (value : ν) (entries : List (κ × ν)) :
    (store key value entries).lookup a =
      if a == key then some value else entries.lookup a := by
  induction entries with
  | nil => rw [store, lookup_cons_ite]
  | cons entry rest ih =>
      by_cases hentry : (entry.1 == key) = true
      · have hkey : (a == entry.1) = (a == key) := BEq.congr_right hentry
        rw [store_cons_same hentry, lookup_cons_ite, lookup_cons_ite, hkey]
        cases a == key <;> rfl
      · rw [store_cons_other hentry, lookup_cons_ite, lookup_cons_ite, ih]
        cases hhead : a == entry.1 with
        | false => rfl
        | true =>
            -- `a` names this entry, whose key differs from `key`
            have hne : (a == key) = false := by
              rw [BEq.congr_left hhead]
              exact eq_false_of_ne_true hentry
            rw [hne]
            rfl

theorem lookup_discard [EquivBEq κ] (key a : κ) (entries : List (κ × ν)) :
    (discard key entries).lookup a =
      if a == key then none else entries.lookup a := by
  induction entries with
  | nil => simp [discard]
  | cons entry rest ih =>
      unfold discard at ih ⊢
      rw [List.filter_cons, lookup_cons_ite]
      cases hentry : entry.1 == key with
      | true =>
          have hkey : (a == entry.1) = (a == key) := BEq.congr_right hentry
          rw [Bool.not_true, if_neg Bool.false_ne_true, ih, hkey]
          cases a == key <;> rfl
      | false =>
          rw [Bool.not_false, if_pos rfl, lookup_cons_ite, ih]
          cases hhead : a == entry.1 with
          | false => rfl
          | true =>
              have hne : (a == key) = false := by rw [BEq.congr_left hhead, hentry]
              rw [hne]
              rfl

/-- Storing the value a key already has changes nothing at all. -/
theorem store_of_lookup [EquivBEq κ] {key : κ} {value : ν} {entries : List (κ × ν)}
    (h : entries.lookup key = some value) : store key value entries = entries := by
  induction entries with
  | nil => simp at h
  | cons entry rest ih =>
      unfold store
      rw [lookup_cons_ite] at h
      cases hentry : key == entry.1 with
      | true =>
          rw [hentry] at h
          have hvalue : entry.2 = value := Option.some.inj h
          rw [if_pos (by rw [BEq.comm]; exact hentry), ← hvalue]
      | false =>
          rw [hentry] at h
          rw [if_neg (by rw [BEq.comm, hentry]; exact Bool.false_ne_true), ih h]

/-- Storing under a key that is there leaves the keys as they are. -/
theorem keys_store_of_lookup [EquivBEq κ] {key : κ} {old : ν} {entries : List (κ × ν)}
    (h : entries.lookup key = some old) (value : ν) :
    (store key value entries).map Prod.fst = entries.map Prod.fst := by
  induction entries with
  | nil => simp at h
  | cons entry rest ih =>
      rw [lookup_cons_ite] at h
      cases hentry : key == entry.1 with
      | true =>
          rw [store_cons_same (by rw [BEq.comm]; exact hentry)]
          rfl
      | false =>
          rw [hentry] at h
          rw [store_cons_other (by rw [BEq.comm, hentry]; exact Bool.false_ne_true), List.map_cons,
            ih h, List.map_cons]

theorem store_store [EquivBEq κ] (key : κ) (first second : ν) (entries : List (κ × ν)) :
    store key second (store key first entries) = store key second entries := by
  induction entries with
  | nil => exact if_pos (BEq.refl key)
  | cons entry rest ih =>
      by_cases hentry : (entry.1 == key) = true
      · rw [store_cons_same hentry, store_cons_same hentry]
        exact if_pos hentry
      · rw [store_cons_other hentry, store_cons_other hentry, store_cons_other hentry, ih]

theorem discard_store [EquivBEq κ] (key : κ) (value : ν) (entries : List (κ × ν)) :
    discard key (store key value entries) = discard key entries := by
  induction entries with
  | nil => simp [store, discard]
  | cons entry rest ih =>
      unfold discard at ih ⊢
      by_cases hentry : (entry.1 == key) = true
      · simp [store_cons_same hentry, hentry]
      · rw [store_cons_other hentry, List.filter_cons, List.filter_cons, ih]

/-- A key without an entry gets one at the end. -/
theorem store_of_lookup_none [EquivBEq κ] {key : κ} {entries : List (κ × ν)}
    (h : entries.lookup key = none) (value : ν) :
    store key value entries = entries ++ [(key, value)] := by
  induction entries with
  | nil => rfl
  | cons entry rest ih =>
      rw [lookup_cons_ite] at h
      cases hentry : key == entry.1 with
      | true =>
          rw [hentry] at h
          cases h
      | false =>
          rw [hentry] at h
          rw [store_cons_other (by rw [BEq.comm, hentry]; exact Bool.false_ne_true), ih h]
          rfl

theorem discard_of_lookup_none [EquivBEq κ] {key : κ} {entries : List (κ × ν)}
    (h : entries.lookup key = none) : discard key entries = entries := by
  induction entries with
  | nil => rfl
  | cons entry rest ih =>
      rw [lookup_cons_ite] at h
      cases hentry : key == entry.1 with
      | true =>
          rw [hentry] at h
          cases h
      | false =>
          rw [hentry] at h
          unfold discard at ih ⊢
          rw [List.filter_cons_of_pos (by rw [BEq.comm, hentry]; rfl), ih h]

/-- A stored entry is the new one or was there before. -/
theorem mem_store [EquivBEq κ] {key : κ} {value : ν} {entries : List (κ × ν)}
    {entry : κ × ν} (h : entry ∈ store key value entries) :
    entry ∈ entries ∨ (entry.1 == key) = true ∧ entry.2 = value := by
  induction entries with
  | nil =>
      rw [store, List.mem_singleton] at h
      subst h
      exact .inr ⟨BEq.refl key, rfl⟩
  | cons head rest ih =>
      unfold store at h
      split at h
      · rename_i hhead
        rcases List.mem_cons.mp h with rfl | hrest
        · exact .inr ⟨hhead, rfl⟩
        · exact .inl (List.mem_cons_of_mem _ hrest)
      · rcases List.mem_cons.mp h with rfl | hrest
        · exact .inl List.mem_cons_self
        · exact (ih hrest).imp_left (List.mem_cons_of_mem _)

/-- Keys are pairwise different. -/
def Distinct (entries : List (κ × ν)) : Prop :=
  entries.Pairwise fun earlier later => (earlier.1 == later.1) = false

theorem distinct_store [EquivBEq κ] {entries : List (κ × ν)} (key : κ) (value : ν)
    (h : Distinct entries) : Distinct (store key value entries) := by
  induction entries with
  | nil => exact List.pairwise_singleton _ _
  | cons head rest ih =>
      obtain ⟨hhead, hrest⟩ := List.pairwise_cons.mp h
      unfold store
      split
      · exact List.pairwise_cons.mpr ⟨hhead, hrest⟩
      · rename_i hne
        refine List.pairwise_cons.mpr ⟨fun entry hentry => ?_, ih hrest⟩
        rcases mem_store hentry with hold | ⟨hkey, -⟩
        · exact hhead entry hold
        · rw [BEq.congr_right hkey]
          exact eq_false_of_ne_true hne

theorem distinct_discard {entries : List (κ × ν)} (key : κ) (h : Distinct entries) :
    Distinct (discard key entries) :=
  List.Pairwise.filter _ h

/-- With different keys, every entry is found under its own key. -/
theorem lookup_of_mem [EquivBEq κ] {entries : List (κ × ν)} (h : Distinct entries)
    {entry : κ × ν} (hmem : entry ∈ entries) : entries.lookup entry.1 = some entry.2 := by
  induction entries with
  | nil => exact absurd hmem List.not_mem_nil
  | cons head rest ih =>
      obtain ⟨hhead, hrest⟩ := List.pairwise_cons.mp h
      rw [lookup_cons_ite]
      rcases List.mem_cons.mp hmem with rfl | htail
      · rw [BEq.refl, if_pos rfl]
      · have hne : (entry.1 == head.1) = false := by
          rw [BEq.comm]
          exact hhead entry htail
        rw [hne]
        exact ih hrest htail

theorem mem_of_lookup [EquivBEq κ] {entries : List (κ × ν)} {key : κ} {value : ν}
    (h : entries.lookup key = some value) :
    ∃ entry ∈ entries, (entry.1 == key) = true ∧ entry.2 = value := by
  induction entries with
  | nil => simp at h
  | cons head rest ih =>
      rw [lookup_cons_ite] at h
      cases hhead : key == head.1 with
      | true =>
          rw [hhead] at h
          exact ⟨head, List.mem_cons_self, by rw [BEq.comm]; exact hhead, Option.some.inj h⟩
      | false =>
          rw [hhead] at h
          obtain ⟨entry, hentry, hkey⟩ := ih h
          exact ⟨entry, List.mem_cons_of_mem _ hentry, hkey⟩

/-- What is discarded is the value under the key, and nothing else. -/
theorem values_discard [EquivBEq κ] {entries : List (κ × ν)} {key : κ} {value : ν}
    (hdistinct : Distinct entries) (h : entries.lookup key = some value) :
    (entries.map Prod.snd).Perm (value :: (discard key entries).map Prod.snd) := by
  induction entries with
  | nil => simp at h
  | cons head rest ih =>
      obtain ⟨hhead, hrest⟩ := List.pairwise_cons.mp hdistinct
      rw [lookup_cons_ite] at h
      cases hsame : key == head.1 with
      | true =>
          rw [hsame] at h
          have hvalue : head.2 = value := Option.some.inj h
          have hnone : rest.lookup key = none := by
            cases hlookup : rest.lookup key with
            | none => rfl
            | some other =>
                obtain ⟨entry, hentry, hkey, -⟩ := mem_of_lookup hlookup
                have hdifferent := hhead entry hentry
                rw [← BEq.congr_left hsame, BEq.comm, hkey] at hdifferent
                cases hdifferent
          have hdiscard := discard_of_lookup_none hnone
          unfold discard at hdiscard ⊢
          rw [List.filter_cons_of_neg (by rw [BEq.comm, hsame]; exact Bool.noConfusion), hdiscard,
            List.map_cons, hvalue]
      | false =>
          rw [hsame] at h
          have hperm := ih hrest h
          unfold discard at hperm ⊢
          rw [List.filter_cons_of_pos (by rw [BEq.comm, hsame]; rfl), List.map_cons, List.map_cons]
          exact (hperm.cons _).trans (.swap _ _ _)

end Assoc

/-! ## Lists of keys -/

section keys

variable [BEq κ] [EquivBEq κ]

theorem contains_congr {a b : κ} (hab : (a == b) = true) (keys : List κ) :
    keys.contains a = keys.contains b := by
  induction keys with
  | nil => rfl
  | cons head rest ih => rw [List.contains_cons, List.contains_cons, ih, BEq.congr_left hab]

omit [EquivBEq κ] in
/-- Filtering by a predicate that cannot tell equal keys apart. -/
theorem contains_filter {keep : κ → Bool} (hkeep : ∀ a b, (a == b) = true → keep a = keep b)
    (keys : List κ) (key : κ) :
    (keys.filter keep).contains key = (keys.contains key && keep key) := by
  induction keys with
  | nil => rfl
  | cons head rest ih =>
      rw [List.contains_cons]
      cases hhead : keep head with
      | true =>
          rw [List.filter_cons_of_pos hhead, List.contains_cons, ih]
          cases hsame : key == head with
          | true => rw [hkeep key head hsame, hhead, Bool.true_or, Bool.true_or, Bool.and_true]
          | false => rw [Bool.false_or, Bool.false_or]
      | false =>
          rw [List.filter_cons_of_neg (by rw [hhead]; exact Bool.false_ne_true), ih]
          cases hsame : key == head with
          | true => rw [hkeep key head hsame, hhead, Bool.and_false, Bool.and_false]
          | false => rw [Bool.false_or]

/-- Lists of different keys with the same keys are equally long. -/
theorem length_eq_of_contains {keys keys' : List κ}
    (hdistinct : keys.Pairwise fun a b => (a == b) = false)
    (hdistinct' : keys'.Pairwise fun a b => (a == b) = false)
    (h : ∀ key, keys.contains key = keys'.contains key) : keys.length = keys'.length := by
  -- equal keys are one key in the quotient
  let same : Setoid κ := ⟨fun a b => (a == b) = true, BEq.refl, BEq.symm, BEq.trans⟩
  have hnodup : ∀ {keys : List κ}, keys.Pairwise (fun a b => (a == b) = false) →
      (keys.map (Quotient.mk same)).Nodup := by
    intro keys hkeys
    refine List.pairwise_map.mpr (hkeys.imp fun hdifferent hsame => ?_)
    rw [show _ = true from Quotient.exact hsame] at hdifferent
    cases hdifferent
  have hmem : ∀ (keys : List κ) (key : κ),
      Quotient.mk same key ∈ keys.map (Quotient.mk same) ↔ keys.contains key = true := by
    intro keys key
    rw [List.mem_map, List.contains_iff_exists_mem_beq]
    constructor
    · rintro ⟨other, hother, hsame⟩
      exact ⟨other, hother, BEq.symm (Quotient.exact hsame)⟩
    · rintro ⟨other, hother, hsame⟩
      exact ⟨other, hother, Quotient.sound (BEq.symm hsame)⟩
  have hperm : (keys.map (Quotient.mk same)).Perm (keys'.map (Quotient.mk same)) := by
    refine (List.perm_ext_iff_of_nodup (hnodup hdistinct) (hnodup hdistinct')).mpr ?_
    intro quotient
    induction quotient using Quotient.inductionOn with
    | h key => rw [hmem, hmem, h key]
  simpa using hperm.length_eq

end keys

/-! ## Dictionaries -/

/-- An insertion-ordered dictionary: entries with pairwise different keys. -/
@[ext]
structure OrderedDict (κ : Type*) (ν : Type*) [BEq κ] where
  items : List (κ × ν)
  distinct : Assoc.Distinct items

namespace OrderedDict

variable [BEq κ]

/-- The dictionary without entries. -/
def empty : OrderedDict κ ν where
  items := []
  distinct := List.Pairwise.nil

instance : Inhabited (OrderedDict κ ν) := ⟨empty⟩

/-- `d.get(key)`. -/
def get? (d : OrderedDict κ ν) (key : κ) : Option ν :=
  d.items.lookup key

/-- The keys in insertion order. -/
def keys (d : OrderedDict κ ν) : List κ :=
  d.items.map Prod.fst

/-- The values in insertion order. -/
def values (d : OrderedDict κ ν) : List ν :=
  d.items.map Prod.snd

/-- `key in d`. -/
def has (d : OrderedDict κ ν) (key : κ) : Bool :=
  (d.get? key).isSome

/-- `d.pop(key, None)`, for its effect. -/
def discard (d : OrderedDict κ ν) (key : κ) : OrderedDict κ ν where
  items := Assoc.discard key d.items
  distinct := Assoc.distinct_discard key d.distinct

variable [EquivBEq κ]

/-- `d[key] = value`. -/
def store (d : OrderedDict κ ν) (key : κ) (value : ν) : OrderedDict κ ν where
  items := Assoc.store key value d.items
  distinct := Assoc.distinct_store key value d.distinct

omit [EquivBEq κ] in
@[simp] theorem get?_empty (key : κ) : (empty : OrderedDict κ ν).get? key = none := rfl

@[simp] theorem get?_store (d : OrderedDict κ ν) (key a : κ) (value : ν) :
    (d.store key value).get? a = if a == key then some value else d.get? a :=
  Assoc.lookup_store key a value d.items

@[simp] theorem get?_discard (d : OrderedDict κ ν) (key a : κ) :
    (d.discard key).get? a = if a == key then none else d.get? a :=
  Assoc.lookup_discard key a d.items

theorem get?_congr (d : OrderedDict κ ν) {a b : κ} (hab : (a == b) = true) :
    d.get? a = d.get? b :=
  Assoc.lookup_congr hab d.items

theorem has_congr (d : OrderedDict κ ν) {a b : κ} (hab : (a == b) = true) :
    d.has a = d.has b := by
  rw [has, d.get?_congr hab, has]

@[simp] theorem has_store (d : OrderedDict κ ν) (key a : κ) (value : ν) :
    (d.store key value).has a = (a == key || d.has a) := by
  rw [has, get?_store, has]
  cases a == key <;> rfl

@[simp] theorem has_discard (d : OrderedDict κ ν) (key a : κ) :
    (d.discard key).has a = (!(a == key) && d.has a) := by
  rw [has, get?_discard, has]
  cases a == key <;> rfl

omit [EquivBEq κ] in
theorem contains_keys (d : OrderedDict κ ν) (key : κ) : d.keys.contains key = d.has key := by
  unfold keys has get?
  induction d.items with
  | nil => rfl
  | cons entry rest ih =>
      rw [List.map_cons, List.contains_cons, Assoc.lookup_cons_ite, ih]
      cases key == entry.1 <;> rfl

theorem has_of_mem_keys {d : OrderedDict κ ν} {key : κ} (h : key ∈ d.keys) : d.has key = true :=
  (d.contains_keys key).symm.trans (List.elem_eq_true_of_mem h)

theorem store_of_get? {d : OrderedDict κ ν} {key : κ} {value : ν}
    (h : d.get? key = some value) : d.store key value = d :=
  OrderedDict.ext (Assoc.store_of_lookup h)

@[simp] theorem store_store (d : OrderedDict κ ν) (key : κ) (first second : ν) :
    (d.store key first).store key second = d.store key second :=
  OrderedDict.ext (Assoc.store_store key first second d.items)

@[simp] theorem discard_store (d : OrderedDict κ ν) (key : κ) (value : ν) :
    (d.store key value).discard key = d.discard key :=
  OrderedDict.ext (Assoc.discard_store key value d.items)

theorem keys_store_of_get? {d : OrderedDict κ ν} {key : κ} {old : ν} (h : d.get? key = some old)
    (value : ν) : (d.store key value).keys = d.keys :=
  Assoc.keys_store_of_lookup h value

theorem values_store_of_get?_none {d : OrderedDict κ ν} {key : κ} (h : d.get? key = none)
    (value : ν) : (d.store key value).values = d.values ++ [value] := by
  change (Assoc.store key value d.items).map Prod.snd = _
  rw [Assoc.store_of_lookup_none h, List.map_append]
  rfl

theorem values_discard {d : OrderedDict κ ν} {key : κ} {value : ν}
    (h : d.get? key = some value) : d.values.Perm (value :: (d.discard key).values) :=
  Assoc.values_discard d.distinct h

theorem discard_of_get?_none {d : OrderedDict κ ν} {key : κ} (h : d.get? key = none) :
    d.discard key = d :=
  OrderedDict.ext (Assoc.discard_of_lookup_none h)

omit [EquivBEq κ] in
theorem distinct_keys (d : OrderedDict κ ν) :
    d.keys.Pairwise fun a b => (a == b) = false :=
  List.pairwise_map.mpr d.distinct

/-- A lookup finds exactly the item with an equal key. -/
theorem get?_eq_some_iff {d : OrderedDict κ ν} {key : κ} {value : ν} :
    d.get? key = some value ↔ ∃ item ∈ d.items, (item.1 == key) = true ∧ item.2 = value := by
  constructor
  · exact Assoc.mem_of_lookup
  · rintro ⟨item, hitem, hkey, rfl⟩
    rw [← d.get?_congr hkey]
    exact Assoc.lookup_of_mem d.distinct hitem

theorem get?_of_mem {d : OrderedDict κ ν} {item : κ × ν} (h : item ∈ d.items) :
    d.get? item.1 = some item.2 :=
  Assoc.lookup_of_mem d.distinct h

theorem get?_foldl_discard (keys : List κ) (d : OrderedDict κ ν) (key : κ) :
    (keys.foldl discard d).get? key = if keys.contains key then none else d.get? key := by
  induction keys generalizing d with
  | nil => rfl
  | cons other rest ih =>
      rw [List.foldl_cons, ih, get?_discard, List.contains_cons]
      cases key == other <;> cases rest.contains key <;> rfl

theorem mem_values {d : OrderedDict κ ν} {key : κ} {value : ν} (h : d.get? key = some value) :
    value ∈ d.values := by
  obtain ⟨item, hitem, -, rfl⟩ := get?_eq_some_iff.mp h
  exact List.mem_map_of_mem hitem

/-- When no value is stored twice, the same value is under the same key. -/
theorem beq_of_get?_eq {d : OrderedDict κ ν} (hvalues : d.values.Nodup) {key other : κ} {value : ν}
    (hkey : d.get? key = some value) (hother : d.get? other = some value) :
    (key == other) = true := by
  obtain ⟨item, hitem, hsame, hvalue⟩ := get?_eq_some_iff.mp hkey
  obtain ⟨item', hitem', hsame', hvalue'⟩ := get?_eq_some_iff.mp hother
  obtain rfl : item = item' :=
    List.inj_on_of_nodup_map hvalues hitem hitem' (hvalue.trans hvalue'.symm)
  exact BEq.trans (BEq.symm hsame) hsame'

end OrderedDict

end Library
end SiliconOffice
