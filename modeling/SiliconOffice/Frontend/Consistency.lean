import Mathlib.Data.List.Induction
import SiliconOffice.Frontend.Healing
import SiliconOffice.Frontend.Slots

/-!
# How the collections of the App hang together

Agents, ghosts, the two timers and the layout are updated by hand, each in its own line of
four methods.  `Consistent` says what they have to do with each other; it is kept by every
message that only carries objects and by every end of a fade-out, whether or not handling
the message raises.

Slots are compared between two states: `KeepsSlots` from before an update to after it.  A
message never takes a slot away (`Steady`), the end of a fade-out takes those of the
sessions that have faded (`slot_updateGhosts`).
-/

namespace SiliconOffice
namespace Frontend

open Library Python

namespace App

/-- A session is an agent or a ghost, not both; these are the sessions with a slot; the
timers run for agents only. -/
structure Consistent (app : App) : Prop where
  apart : ∀ key, app.agents.has key = true → app.ghosts.has key = false
  seated : ∀ key,
    app.layout.slotOfSession.has key = (app.agents.has key || app.ghosts.has key)
  spawning : ∀ key, app.spawnStarted.has key = true → app.agents.has key = true
  asking : ∀ key, app.askingSince.has key = true → app.agents.has key = true

/-- Every session that had a slot still has that slot. -/
def KeepsSlots (app app' : App) : Prop :=
  ∀ key slot, app.layout.slotOfSession.get? key = some slot →
    app'.layout.slotOfSession.get? key = some slot

/-- A consistent state of objects in which the slots of an earlier state are kept. -/
structure Steady (start app : App) : Prop where
  consistent : Consistent app
  objects : AllObjects app
  slots : KeepsSlots start app

variable {app start : App} {key : DictKey} {slot : Nat} {moment : Moment}

/-! ## Synchronising the layout -/

/-- The ids that the layout is given: the agents and the ghosts. -/
theorem contains_shown (app : App) (key : DictKey) :
    (app.agents.keys ++ app.ghosts.keys.filter fun sid => !app.agents.has sid).contains key =
      (app.agents.has key || app.ghosts.has key) := by
  rw [List.contains_append, contains_filter (fun a b hab => by rw [app.agents.has_congr hab]),
    OrderedDict.contains_keys, OrderedDict.contains_keys]
  cases app.agents.has key <;> cases app.ghosts.has key <;> rfl

theorem has_syncLayout (order : SetOrder) (app : App) (key : DictKey) :
    (app.syncLayout order).layout.slotOfSession.has key =
      (app.agents.has key || app.ghosts.has key) :=
  (Layout.has_sync order _ app.layout key).trans (contains_shown app key)

theorem slot_syncLayout (order : SetOrder)
    (h : app.layout.slotOfSession.get? key = some slot)
    (hshown : (app.agents.has key || app.ghosts.has key) = true) :
    (app.syncLayout order).layout.slotOfSession.get? key = some slot :=
  Layout.slot_sync order h ((contains_shown app key).trans hshown)

theorem has_of_slot (h : app.layout.slotOfSession.get? key = some slot) :
    app.layout.slotOfSession.has key = true := by
  rw [OrderedDict.has, h]
  rfl

/-- Among consistent states, slots are kept when nobody who was shown is dropped. -/
theorem Consistent.keepsSlots (h : Consistent app) (order : SetOrder) {app' : App}
    (hlayout : app'.layout = app.layout)
    (hshown : ∀ key, (app.agents.has key || app.ghosts.has key) = true →
      (app'.agents.has key || app'.ghosts.has key) = true) :
    KeepsSlots app (app'.syncLayout order) := by
  intro key slot hslot
  have hseated := h.seated key
  rw [has_of_slot hslot] at hseated
  exact slot_syncLayout order (hlayout ▸ hslot) (hshown key hseated.symm)

theorem KeepsSlots.trans {middle final : App} (hfirst : KeepsSlots start middle)
    (hsecond : KeepsSlots middle final) : KeepsSlots start final :=
  fun key slot hslot => hsecond key slot (hfirst key slot hslot)

/-! ## The updates that messages come to -/

section upserted

variable {agent previous state : Json}

/-- Whoever is shown after an upsert was shown before or is the session upserted. -/
theorem shown_upserted (app : App) (other : DictKey) :
    ((upserted moment key agent previous state app).agents.has other ||
        (upserted moment key agent previous state app).ghosts.has other) =
      (other == key || app.agents.has other || app.ghosts.has other) := by
  change ((app.agents.store key agent).has other || (app.ghosts.discard key).has other) = _
  rw [OrderedDict.has_store, OrderedDict.has_discard]
  cases other == key <;> rfl

theorem consistent_upserted (h : Consistent app) :
    Consistent (upserted moment key agent previous state app) := by
  constructor
  case apart =>
    intro other hagent
    change (app.ghosts.discard key).has other = false
    rw [show (upserted moment key agent previous state app).agents = app.agents.store key agent
      from rfl, OrderedDict.has_store] at hagent
    rw [OrderedDict.has_discard]
    cases hsame : other == key with
    | true => rfl
    | false =>
        rw [hsame, Bool.false_or] at hagent
        exact h.apart other hagent
  case seated => exact fun other => has_syncLayout moment.order _ other
  case spawning =>
    intro other hspawning
    rw [agents_upserted, OrderedDict.has_store, Bool.or_eq_true]
    change OrderedDict.has (if _ then _ else _) other = true at hspawning
    split at hspawning
    · rw [OrderedDict.has_store, Bool.or_eq_true] at hspawning
      exact hspawning.imp_right (h.spawning other)
    · exact .inr (h.spawning other hspawning)
  case asking =>
    intro other hasking
    rw [agents_upserted, OrderedDict.has_store, Bool.or_eq_true]
    change OrderedDict.has (if _ then _ else _) other = true at hasking
    split at hasking
    · rw [OrderedDict.has_store, Bool.or_eq_true] at hasking
      exact hasking.imp_right (h.asking other)
    · exact .inr (h.asking other hasking)

theorem keepsSlots_upserted (h : Consistent app) :
    KeepsSlots app (upserted moment key agent previous state app) := by
  refine h.keepsSlots moment.order rfl fun other hbefore => ?_
  have hshown := @shown_upserted key moment agent previous state app other
  rw [Bool.or_assoc, hbefore, Bool.or_true] at hshown
  exact hshown

end upserted

section despawned

variable {agent : Json}

/-- The state in which an agent becomes a ghost. -/
theorem despawned_of_get? (hget : app.agents.get? key = some agent)
    (hagent : agent.isObject = true) :
    despawned moment key app =
      syncLayout moment.order
        { app with
          agents := app.agents.discard key
          ghosts := app.ghosts.store key ⟨agent, moment.despawnedAt key⟩
          spawnStarted := app.spawnStarted.discard key
          askingSince := app.askingSince.discard key } := by
  unfold despawned
  rw [hget]
  dsimp only
  obtain ⟨members, rfl⟩ := Json.isObject_iff.mp hagent
  rfl

/-- A session that is despawned stays shown, as a ghost. -/
theorem shown_despawned (hget : app.agents.get? key = some agent)
    (hagent : agent.isObject = true) (other : DictKey) :
    ((despawned moment key app).agents.has other ||
        (despawned moment key app).ghosts.has other) =
      (other == key || app.agents.has other || app.ghosts.has other) := by
  rw [despawned_of_get? hget hagent]
  change ((app.agents.discard key).has other || (app.ghosts.store key _).has other) = _
  rw [OrderedDict.has_store, OrderedDict.has_discard]
  cases other == key <;> simp

theorem consistent_despawned (h : Consistent app) (hobjects : AllObjects app) (key : DictKey) :
    Consistent (despawned moment key app) := by
  cases hget : app.agents.get? key with
  | none =>
      unfold despawned
      rw [hget]
      exact h
  | some agent =>
      rw [despawned_of_get? hget (hobjects key agent hget)]
      constructor
      case apart =>
        intro other hagent
        change ((app.agents.discard key).has other) = true at hagent
        change (app.ghosts.store key _).has other = false
        rw [OrderedDict.has_discard, Bool.and_eq_true, Bool.not_eq_true'] at hagent
        rw [OrderedDict.has_store, hagent.1, Bool.false_or]
        exact h.apart other hagent.2
      case seated => exact fun other => has_syncLayout moment.order _ other
      case spawning =>
        intro other hspawning
        change ((app.spawnStarted.discard key).has other) = true at hspawning
        change ((app.agents.discard key).has other) = true
        rw [OrderedDict.has_discard, Bool.and_eq_true] at hspawning ⊢
        exact hspawning.imp_right (h.spawning other)
      case asking =>
        intro other hasking
        change ((app.askingSince.discard key).has other) = true at hasking
        change ((app.agents.discard key).has other) = true
        rw [OrderedDict.has_discard, Bool.and_eq_true] at hasking ⊢
        exact hasking.imp_right (h.asking other)

theorem keepsSlots_despawned (h : Consistent app) (hobjects : AllObjects app) (key : DictKey) :
    KeepsSlots app (despawned moment key app) := by
  cases hget : app.agents.get? key with
  | none =>
      unfold despawned
      rw [hget]
      exact fun other slot hslot => hslot
  | some agent =>
      have hagent := hobjects key agent hget
      have hshown := @shown_despawned app key moment agent hget hagent
      rw [despawned_of_get? hget hagent] at hshown ⊢
      refine h.keepsSlots moment.order rfl fun other hbefore => (hshown other).trans ?_
      rw [Bool.or_assoc, hbefore, Bool.or_true]

end despawned

/-- **Messages keep the collections together and leave every slot where it is.** -/
theorem preserved_steady (start : App) (moment : Moment) : Preserved moment (Steady start) where
  objects _ h := h.objects
  connection _ _ h := ⟨⟨h.consistent.apart, h.consistent.seated, h.consistent.spawning,
    h.consistent.asking⟩, h.objects, h.slots⟩
  upsert _ key agent previous state h hagent :=
    ⟨consistent_upserted h.consistent,
      (preserved_allObjects moment).upsert _ key agent previous state h.objects hagent,
      h.slots.trans (keepsSlots_upserted h.consistent)⟩
  despawn _ key h :=
    ⟨consistent_despawned h.consistent h.objects key,
      (preserved_allObjects moment).despawn _ key h.objects,
      h.slots.trans (keepsSlots_despawned h.consistent h.objects key)⟩

/-! ## The end of a fade-out -/

theorem has_foldl_discard (sids : List DictKey) (ghosts : OrderedDict DictKey Ghost)
    (key : DictKey) :
    (sids.foldl OrderedDict.discard ghosts).has key =
      (ghosts.has key && !sids.contains key) := by
  induction sids generalizing ghosts with
  | nil => exact (Bool.and_true _).symm
  | cons sid rest ih =>
      rw [List.foldl_cons, ih, OrderedDict.has_discard, List.contains_cons]
      cases key == sid <;> cases ghosts.has key <;> rfl

theorem consistent_updateGhosts (h : Consistent app) (order : SetOrder) (now : ℚ) :
    Consistent (app.updateGhosts order now) := by
  unfold updateGhosts
  dsimp only
  split
  · rename_i hnone
    rw [List.isEmpty_iff.mp hnone]
    exact ⟨h.apart, h.seated, h.spawning, h.asking⟩
  · refine ⟨fun key hagent => ?_, fun key => has_syncLayout order _ key, h.spawning, h.asking⟩
    have hghost : app.ghosts.has key = false := h.apart key hagent
    exact (has_foldl_discard _ app.ghosts key).trans (by rw [hghost, Bool.false_and])

/-- The end of a fade-out takes the slots of the sessions that have faded only. -/
theorem slot_updateGhosts (h : Consistent app) (order : SetOrder) (now : ℚ)
    (hslot : app.layout.slotOfSession.get? key = some slot)
    (hfading : (app.finished now).contains key = false) :
    (app.updateGhosts order now).layout.slotOfSession.get? key = some slot := by
  unfold updateGhosts
  dsimp only
  split
  · exact hslot
  · refine slot_syncLayout order hslot ?_
    have hseated := h.seated key
    rw [has_of_slot hslot] at hseated
    change (app.agents.has key || ((app.finished now).foldl _ app.ghosts).has key) = true
    rw [has_foldl_discard, hfading, Bool.not_false, Bool.and_true]
    exact hseated.symm

/-! ## Histories -/

/-- The update ends the fade-out of the session. -/
def Fades (app : App) (key : DictKey) : Update → Prop
  | .message _ _ => False
  | .ghosts _ now => (app.finished now).contains key = true

theorem consistent_initial : Consistent initial where
  apart _ h := by cases h
  seated _ := rfl
  spawning _ h := by cases h
  asking _ h := by cases h

theorem history_snoc (updates : List Update) (update : Update) :
    history (updates ++ [update]) = perform (history updates) update :=
  List.foldl_concat ..

/-- One update of a consistent state. -/
theorem consistent_perform (h : Consistent app) (hobjects : AllObjects app) {update : Update}
    (hupdate : ∀ moment message, update = .message moment message → CarriesObjects message) :
    Consistent (perform app update) ∧
      ∀ key slot, app.layout.slotOfSession.get? key = some slot → ¬ Fades app key update →
        (perform app update).layout.slotOfSession.get? key = some slot := by
  cases update with
  | message moment message =>
      have hsteady : Steady app app := ⟨h, hobjects, fun _ _ hslot => hslot⟩
      have hafter := (preserved_steady app moment).handleMessage hsteady
        (hupdate moment message rfl)
      exact ⟨hafter.consistent, fun key slot hslot _ => hafter.slots key slot hslot⟩
  | ghosts order now =>
      exact ⟨consistent_updateGhosts h order now, fun key slot hslot hfades =>
        slot_updateGhosts h order now hslot (eq_false_of_ne_true hfades)⟩

theorem consistent_history {updates : List Update}
    (hupdates : ∀ moment message, .message moment message ∈ updates → CarriesObjects message) :
    Consistent (history updates) := by
  induction updates using List.reverseRecOn with
  | nil => exact consistent_initial
  | append_singleton earlier update ih =>
      have hearlier : ∀ moment message, .message moment message ∈ earlier →
          CarriesObjects message :=
        fun moment message hmem => hupdates moment message (List.mem_append_left _ hmem)
      rw [history_snoc]
      refine (consistent_perform (ih hearlier) (allObjects_history hearlier) ?_).1
      rintro moment message rfl
      exact hupdates moment message (List.mem_append_right _ (List.mem_singleton.mpr rfl))

/-- **The frontend's state is consistent and nobody changes desks.**  In every history of
messages that only carry objects, a session keeps its slot for as long as no fade-out of
it ends. -/
theorem consistent_and_stable (updates : List Update)
    (hupdates : ∀ moment message, .message moment message ∈ updates → CarriesObjects message) :
    Consistent (history updates) ∧
      ∀ earlier later, updates = earlier ++ later → ∀ key slot,
        (history earlier).layout.slotOfSession.get? key = some slot →
        (∀ before update, before ++ [update] <+: later →
          ¬ Fades (history (earlier ++ before)) key update) →
        (history updates).layout.slotOfSession.get? key = some slot := by
  refine ⟨consistent_history hupdates, ?_⟩
  rintro earlier later rfl key slot hslot hfades
  -- on the updates since the slot was taken
  induction later using List.reverseRecOn with
  | nil =>
      rw [List.append_nil]
      exact hslot
  | append_singleton before update ih =>
      have hbefore : ∀ moment message, .message moment message ∈ earlier ++ before →
          CarriesObjects message := by
        intro moment message hmem
        refine hupdates moment message ?_
        rw [← List.append_assoc]
        exact List.mem_append_left _ hmem
      have hkept := ih hbefore fun prior step hinitial =>
        hfades prior step (hinitial.trans (List.prefix_append _ _))
      rw [← List.append_assoc, history_snoc]
      refine (consistent_perform (consistent_history hbefore) (allObjects_history hbefore)
        ?_).2 key slot hkept (hfades before update (List.prefix_refl _))
      rintro moment message rfl
      refine hupdates moment message ?_
      rw [← List.append_assoc]
      exact List.mem_append_right _ (List.mem_singleton.mpr rfl)

/-! ### A session that comes back -/

def arrival : Json :=
  .obj [("type", .str "diff"), ("session_id", .str "s1"), ("op", .str "upsert"),
    ("agent", .obj [("state", .str "asking")])]

def departure : Json :=
  .obj [("type", .str "diff"), ("session_id", .str "s1"), ("op", .str "remove")]

theorem carriesObjects_arrival : CarriesObjects arrival where
  inAgents agents h := by cases h
  inAgent agent h := by
    cases h
    rfl

theorem carriesObjects_departure : CarriesObjects departure where
  inAgents agents h := by cases h
  inAgent agent h := by cases h

/-- Removed and back before its fade-out ends, the session sits at the desk it had. -/
theorem consistent_and_stable_returning :
    (history [.message .zero arrival, .message .zero departure,
      .message .zero arrival]).layout.slotOfSession.get? (.str "s1") = some 0 := by
  refine (consistent_and_stable [.message .zero arrival, .message .zero departure,
    .message .zero arrival] ?_).2 [.message .zero arrival]
      [.message .zero departure, .message .zero arrival] rfl (.str "s1") 0 rfl ?_
  · intro moment message hmem
    simp only [List.mem_cons, List.not_mem_nil, or_false, Update.message.injEq] at hmem
    rcases hmem with ⟨-, rfl⟩ | ⟨-, rfl⟩ | ⟨-, rfl⟩
    · exact carriesObjects_arrival
    · exact carriesObjects_departure
    · exact carriesObjects_arrival
  · intro before update hinitial
    have hmem := hinitial.subset (List.mem_append_right before (List.mem_singleton.mpr rfl))
    simp only [List.mem_cons, List.not_mem_nil, or_false] at hmem
    rcases hmem with rfl | rfl <;> exact id

end App

end Frontend
end SiliconOffice
