import SiliconOffice.Frontend.Cells

/-!
# Animations

Fade-ins, flashes and fade-outs from frame to frame.  The timers behind them are set by
messages and dropped by `_draw`; `animations_advance` says that on the screen an animation
only ever goes forward, until what it is about comes to an end.
-/

namespace SiliconOffice
namespace Frontend

open Library Python

namespace Cell

variable {name : String} {cell : Cell} {now later : ℚ}

/-! ## What the timers show -/

/-- How far the agent has faded in. -/
def alphaAt (cell : Cell) (now : ℚ) : ℚ :=
  cell.spawnStarted.elim 1 fun started => progress spawnAnimSeconds started now

/-- How much is left of its flash. -/
def boostAt (cell : Cell) (now : ℚ) : ℚ :=
  if cell.asking then
    cell.askingSince.elim 0 fun since => max 0 (1 - (now - since) / askingFlashSeconds)
  else 0

/-- How much is left of the ghost. -/
def ghostAlphaAt (cell : Cell) (now : ℚ) : ℚ :=
  cell.ghost.elim 0 fun ghost => ghost.alphaAt now

theorem alphaAt_le_one (cell : Cell) (now : ℚ) : cell.alphaAt now ≤ 1 := by
  unfold alphaAt
  cases cell.spawnStarted with
  | none => exact le_refl 1
  | some started => exact unitClamp_le_one _

theorem alphaAt_mono (h : now ≤ later) : cell.alphaAt now ≤ cell.alphaAt later := by
  unfold alphaAt
  cases cell.spawnStarted with
  | none => exact le_refl 1
  | some started => exact progress_mono (by decide +kernel) h

theorem boostAt_anti (h : now ≤ later) : cell.boostAt later ≤ cell.boostAt now := by
  unfold boostAt
  split
  · cases cell.askingSince with
    | none => exact le_refl 0
    | some since =>
        dsimp only [Option.elim, askingFlashSeconds]
        gcongr
  · exact le_refl 0

theorem ghostAlphaAt_anti (h : now ≤ later) : cell.ghostAlphaAt later ≤ cell.ghostAlphaAt now := by
  unfold ghostAlphaAt
  cases cell.ghost with
  | none => exact le_refl 0
  | some ghost => exact sub_le_sub_left (progress_mono (by decide +kernel) h) 1

/-! ## What one update does to the timers -/

/-- The agent and the ghost are not there together. -/
def Apart (cell : Cell) : Prop :=
  cell.agent = none ∨ cell.ghost = none

/-- What an update does to a cell: one of four things. -/
theorem step_cases (name : String) (cell : Cell) (update : App.Update) :
    cell.step name update = cell ∨ (∃ now agent, cell.step name update = cell.upsert now agent) ∨
      (∃ at', cell.step name update = cell.despawn at') ∨
        ∃ now, cell.step name update = cell.fade now := by
  cases update with
  | ghosts order now => exact .inr (.inr (.inr ⟨now, rfl⟩))
  | message moment message =>
      unfold step handle
      dsimp only
      split
      · cases (message.get? "agents").getD (.obj []) with
        | obj agents =>
            dsimp only
            cases agents.lookup name with
            | some agent => exact .inr (.inl ⟨_, _, rfl⟩)
            | none => exact .inr (.inr (.inl ⟨_, rfl⟩))
        | _ => exact .inl rfl
      · split
        · split
          · exact .inr (.inl ⟨_, _, rfl⟩)
          · split
            · exact .inr (.inr (.inl ⟨_, rfl⟩))
            · exact .inl rfl
        · exact .inl rfl

theorem Apart.step (h : cell.Apart) (update : App.Update) : (cell.step name update).Apart := by
  rcases step_cases name cell update with hsame | ⟨now, agent, hupsert⟩ | ⟨at', hdespawn⟩ |
    ⟨now, hfade⟩
  · rwa [hsame]
  · rw [hupsert]
    exact .inr rfl
  · rw [hdespawn]
    unfold despawn
    cases hagent : cell.agent with
    | none => exact .inl hagent
    | some agent => exact .inl rfl
  · rw [hfade]
    rcases h with hagent | hghost
    · exact .inl hagent
    · refine .inr ?_
      unfold fade
      rw [hghost]
      rfl

/-- A session that is shown is not faded in again. -/
theorem spawnStarted_step (hshown : cell.shown = true) (update : App.Update) :
    (cell.step name update).spawnStarted = cell.spawnStarted ∨
      (cell.step name update).spawnStarted = none := by
  rcases step_cases name cell update with hsame | ⟨now, agent, hupsert⟩ | ⟨at', hdespawn⟩ |
    ⟨now, hfade⟩
  · exact .inl (by rw [hsame])
  · refine .inl ?_
    rw [hupsert]
    exact if_pos hshown
  · rw [hdespawn]
    unfold despawn
    cases cell.agent with
    | none => exact .inl rfl
    | some agent => exact .inr rfl
  · exact .inl (by rw [hfade]; rfl)

/-- An agent that keeps asking does not flash again. -/
theorem askingSince_step (hasking : cell.asking = true) (update : App.Update)
    (hstill : (cell.step name update).asking = true) :
    (cell.step name update).askingSince = cell.askingSince := by
  rcases step_cases name cell update with hsame | ⟨now, agent, hupsert⟩ | ⟨at', hdespawn⟩ |
    ⟨now, hfade⟩
  · rw [hsame]
  · rw [hupsert]
    unfold upsert
    rw [hasking, Bool.not_true, Bool.and_false]
    rfl
  · rw [hdespawn] at hstill ⊢
    unfold despawn at hstill ⊢
    cases hagent : cell.agent with
    | none => rfl
    | some agent =>
        rw [hagent] at hstill
        cases hstill
  · rw [hfade]
    rfl

/-- A ghost that stays is the same ghost. -/
theorem ghost_step (hapart : cell.Apart) {ghost : Ghost} (hghost : cell.ghost = some ghost)
    (update : App.Update) (hstill : (cell.step name update).ghost.isSome = true) :
    (cell.step name update).ghost = some ghost := by
  have hagent : cell.agent = none := by
    rcases hapart with hagent | hnone
    · exact hagent
    · rw [hghost] at hnone
      cases hnone
  rcases step_cases name cell update with hsame | ⟨now, agent, hupsert⟩ | ⟨at', hdespawn⟩ |
    ⟨now, hfade⟩
  · rw [hsame, hghost]
  · rw [hupsert] at hstill
    cases hstill
  · rw [hdespawn, despawn_of_none hagent, hghost]
  · rw [hfade] at hstill ⊢
    unfold fade at hstill ⊢
    dsimp only at hstill ⊢
    rw [hghost, Option.filter_some] at hstill ⊢
    split at hstill
    · rename_i hstays
      rw [if_pos hstays]
    · cases hstill

/-! ## Runs of updates -/

/-- The session is like this before, between and after the updates. -/
def Throughout (holds : Cell → Prop) (name : String) (cell : Cell) (updates : List App.Update) :
    Prop :=
  ∀ before, before <+: updates → holds (before.foldl (Cell.step name) cell)

variable {holds : Cell → Prop} {updates : List App.Update} {update : App.Update}

theorem Throughout.head (h : Throughout holds name cell updates) : holds cell :=
  h [] (List.nil_prefix ..)

theorem Throughout.tail (h : Throughout holds name cell (update :: updates)) :
    Throughout holds name (cell.step name update) updates :=
  fun before hbefore => h (update :: before) (List.cons_prefix_cons.mpr ⟨rfl, hbefore⟩)

theorem spawnStarted_foldl
    (h : Throughout (fun cell => cell.shown = true) name cell updates) :
    (updates.foldl (Cell.step name) cell).spawnStarted = cell.spawnStarted ∨
      (updates.foldl (Cell.step name) cell).spawnStarted = none := by
  induction updates generalizing cell with
  | nil => exact .inl rfl
  | cons update rest ih =>
      rw [List.foldl_cons]
      rcases ih h.tail with hkept | hnone
      · rcases @spawnStarted_step name cell h.head update with hsame | hdropped
        · exact .inl (hkept.trans hsame)
        · exact .inr (hkept.trans hdropped)
      · exact .inr hnone

theorem askingSince_foldl
    (h : Throughout (fun cell => cell.asking = true) name cell updates) :
    (updates.foldl (Cell.step name) cell).askingSince = cell.askingSince := by
  induction updates generalizing cell with
  | nil => rfl
  | cons update rest ih =>
      rw [List.foldl_cons, ih h.tail]
      exact askingSince_step h.head update h.tail.head

theorem ghost_foldl (hapart : cell.Apart)
    (h : Throughout (fun cell => cell.ghost.isSome = true) name cell updates) :
    (updates.foldl (Cell.step name) cell).ghost = cell.ghost := by
  induction updates generalizing cell with
  | nil => rfl
  | cons update rest ih =>
      obtain ⟨ghost, hghost⟩ := Option.isSome_iff_exists.mp h.head
      rw [List.foldl_cons, ih (hapart.step update) h.tail, hghost]
      exact ghost_step hapart hghost update h.tail.head

end Cell

/-! ## Frames -/

namespace Window

variable {toolkit : Toolkit}

theorem app_updatesOf (feed : Feed) (turns : List Turn) :
    (turns.foldl Feed.perform feed).app = (feed.updatesOf turns).foldl App.perform feed.app := by
  rw [Feed.app, App.history, Feed.updates_foldl, List.foldl_append]
  rfl

/-- On a frame that is drawn after all that was drawn before, the window shows what the feed
says. -/
theorem readings_of_refines {seen : List ℚ} {feed : Feed} {window : Window toolkit} {now : ℚ}
    (h : Refines seen feed window) (hseen : ∀ t ∈ seen, t ≤ now) (name : String) :
    (window.app.cell name).alphaAt now = (feed.app.cell name).alphaAt now ∧
      (window.app.cell name).boostAt now = (feed.app.cell name).boostAt now ∧
      (window.app.cell name).ghostAlphaAt now = (feed.app.cell name).ghostAlphaAt now := by
  refine ⟨App.alphaOf_of_sheds h.app hseen (.str name), ?_, ?_⟩
  · have hagent : (window.app.cell name).agent = (feed.app.cell name).agent := by
      unfold App.cell
      rw [h.app.agents]
    unfold Cell.boostAt Cell.asking
    rw [hagent]
    cases hget : (feed.app.cell name).agent with
    | none => rfl
    | some agent =>
        have hboost := App.boostOf_of_sheds h.app hseen (.str name) agent
        exact hboost
  · unfold Cell.ghostAlphaAt App.cell
    rw [h.app.ghosts]

/-- By a clock that never goes back, the last frame is the latest. -/
theorem le_of_drawnTimes {turns : List Turn} {turn : Turn}
    (h : ((turns ++ [turn]).map Turn.drawnAt).Pairwise (· ≤ ·)) :
    ∀ t ∈ drawnTimes (turns ++ [turn]), t ≤ turn.drawnAt := by
  intro t ht
  rw [List.map_append] at h
  rw [drawnTimes, List.mem_reverse, List.map_append] at ht
  rcases List.mem_append.mp ht with hearlier | hlast
  · exact (List.pairwise_append.mp h).2.2 t hearlier _ List.mem_cons_self
  · exact (List.mem_singleton.mp hlast).le

/-- What is handled of well-formed messages is well-formed. -/
theorem wellFormed_updatesOf {feed : Feed} {turns : List Turn}
    (hqueue : ∀ message ∈ feed.queue, App.WellFormed message)
    (harrivals : ∀ turn ∈ turns, ∀ message ∈ turn.arrivals, App.WellFormed message) :
    ∀ update ∈ feed.updatesOf turns, update.WellFormed := by
  rintro update hupdate moment message rfl
  have hall := Feed.messages_foldl feed turns
  have hmem : message ∈ feed.queue ++ turns.flatMap Turn.arrivals := by
    rw [← hall]
    exact List.mem_append_left _ (App.mem_messages hupdate)
  rcases List.mem_append.mp hmem with hwaiting | harrived
  · exact hqueue message hwaiting
  · obtain ⟨turn, hturn, hmessage⟩ := List.mem_flatMap.mp harrived
    exact harrivals turn hturn message hmessage

/-- **Animations only go forward.**  Between two frames of a run of well-formed messages, by a
clock that never goes back: while a session is shown its agent is never fainter than before,
while it asks its flash never grows, and while it fades out its ghost never comes back. -/
theorem animations_advance (windowSize : Int × Int) (earlier : List Turn) (turn : Turn)
    (later : List Turn) (last : Turn)
    (harrivals : ∀ other ∈ earlier ++ [turn] ++ (later ++ [last]), ∀ message ∈ other.arrivals,
      App.WellFormed message)
    (hclock : ((earlier ++ [turn] ++ (later ++ [last])).map Turn.drawnAt).Pairwise (· ≤ ·))
    (name : String) :
    let feed := Feed.afterTurns (earlier ++ [turn])
    let updates := feed.updatesOf (later ++ [last])
    let frame := (afterTurns windowSize (earlier ++ [turn]) : Window toolkit).app.cell name
    let frame' := (afterTurns windowSize (earlier ++ [turn] ++ (later ++ [last])) :
      Window toolkit).app.cell name
    (Cell.Throughout (fun cell => cell.shown = true) name (feed.app.cell name) updates →
      frame.alphaAt turn.drawnAt ≤ frame'.alphaAt last.drawnAt) ∧
    (Cell.Throughout (fun cell => cell.asking = true) name (feed.app.cell name) updates →
      frame'.boostAt last.drawnAt ≤ frame.boostAt turn.drawnAt) ∧
    (Cell.Throughout (fun cell => cell.ghost.isSome = true) name (feed.app.cell name) updates →
      frame'.ghostAlphaAt last.drawnAt ≤ frame.ghostAlphaAt turn.drawnAt) := by
  intro feed updates frame frame'
  have hall := List.pairwise_append.mp (by rwa [List.map_append] at hclock)
  have hfirst := le_of_drawnTimes hall.1
  have hlast : ∀ t ∈ drawnTimes (earlier ++ [turn] ++ (later ++ [last])), t ≤ last.drawnAt := by
    rw [← List.append_assoc] at hclock ⊢
    exact le_of_drawnTimes hclock
  have horder : turn.drawnAt ≤ last.drawnAt :=
    hall.2.2 turn.drawnAt
      (List.mem_map_of_mem (List.mem_append_right _ (List.mem_singleton_self _)))
      last.drawnAt (List.mem_map_of_mem (List.mem_append_right _ (List.mem_singleton_self _)))
  have hrefines := @refines_afterTurns toolkit windowSize (earlier ++ [turn])
  have hrefines' := @refines_afterTurns toolkit windowSize
    (earlier ++ [turn] ++ (later ++ [last]))
  obtain ⟨halpha, hboost, hghost⟩ := readings_of_refines hrefines hfirst name
  obtain ⟨halpha', hboost', hghost'⟩ := readings_of_refines hrefines' hlast name
  -- the cell of the second frame is run from the cell of the first
  obtain ⟨hqueue, -, -, hsettled⟩ := @settled_of_wellFormed toolkit windowSize
    (earlier ++ [turn]) fun other hother => harrivals other (List.mem_append_left _ hother)
  have hobjects : App.AllObjects feed.app := by
    have hagents := hsettled.objects
    rwa [App.AllObjects, hrefines.app.agents] at hagents
  have hupdates : ∀ update ∈ updates, update.WellFormed := by
    refine wellFormed_updatesOf (fun message hmessage => ?_)
      fun other hother => harrivals other (List.mem_append_right _ hother)
    rw [← hrefines.queue, hqueue] at hmessage
    cases hmessage
  have hcell : (Feed.afterTurns (earlier ++ [turn] ++ (later ++ [last]))).app.cell name =
      updates.foldl (Cell.step name) (feed.app.cell name) := by
    rw [Feed.afterTurns_append, app_updatesOf]
    exact App.cell_foldl hobjects hupdates name
  have hapart : (feed.app.cell name).Apart := by
    cases hagent : (feed.app.cell name).agent with
    | none => exact .inl hagent
    | some agent =>
        refine .inr (Option.not_isSome_iff_eq_none.mp (ne_true_of_eq_false ?_))
        have hshown := hsettled.consistent.apart (.str name)
        rw [hrefines.app.agents, hrefines.app.ghosts] at hshown
        exact hshown (Option.isSome_iff_exists.mpr ⟨agent, hagent⟩)
  refine ⟨fun hshown => ?_, fun hasking => ?_, fun hfading => ?_⟩
  · show frame.alphaAt _ ≤ frame'.alphaAt _
    rw [halpha, halpha', hcell]
    rcases Cell.spawnStarted_foldl hshown with hkept | hnone
    · refine (Cell.alphaAt_mono horder).trans (le_of_eq ?_)
      unfold Cell.alphaAt
      rw [hkept]
    · refine (Cell.alphaAt_le_one _ _).trans (le_of_eq ?_)
      unfold Cell.alphaAt
      rw [hnone]
      rfl
  · show frame'.boostAt _ ≤ frame.boostAt _
    rw [hboost, hboost', hcell]
    refine le_trans (le_of_eq ?_) (Cell.boostAt_anti horder)
    have hstart : (feed.app.cell name).asking = true := hasking.head
    have hfinal : (updates.foldl (Cell.step name) (feed.app.cell name)).asking = true :=
      hasking updates (List.prefix_refl _)
    unfold Cell.boostAt
    rw [Cell.askingSince_foldl hasking, hstart, hfinal]
  · show frame'.ghostAlphaAt _ ≤ frame.ghostAlphaAt _
    rw [hghost, hghost', hcell]
    refine le_trans (le_of_eq ?_) (Cell.ghostAlphaAt_anti horder)
    unfold Cell.ghostAlphaAt
    rw [Cell.ghost_foldl hapart hfading]

/-! ### An agent that comes, asks and goes -/

/-- Two turns of which the second only draws. -/
theorem throughout_drawing {holds : Cell → Prop} {turns : List Turn} {now : ℚ}
    (hupdates : (Feed.afterTurns turns).updatesOf [turnAt now []] = [.ghosts .asBuilt now])
    (hfirst : holds ((Feed.afterTurns turns).app.cell "s1"))
    (hsecond : holds (((Feed.afterTurns turns).app.cell "s1").step "s1"
      (.ghosts .asBuilt now))) :
    Cell.Throughout holds "s1" ((Feed.afterTurns turns).app.cell "s1")
      ((Feed.afterTurns turns).updatesOf [turnAt now []]) := by
  rw [hupdates]
  intro before hbefore
  rcases List.prefix_cons_iff.mp hbefore with rfl | ⟨rest, rfl, hrest⟩
  · exact hfirst
  · rw [List.prefix_nil.mp hrest]
    exact hsecond

/-- The session of the opening snapshot has ended. -/
def closingSnapshot : Json :=
  .obj [("type", .str "snapshot"), ("agents", .obj [])]

theorem wellFormed_closingSnapshot : App.WellFormed closingSnapshot := by
  refine ⟨rfl, ⟨fun agents hagents item hitem => ?_, fun agent hagent => ?_⟩,
    fun value hvalue => ?_, fun agents hagents => ?_, fun value hvalue => ?_⟩
  · cases hagents
    cases hitem
  · cases hagent
  · cases hvalue
    rfl
  · cases hagents
    exact List.nodup_nil
  · cases hvalue

theorem wellFormed_openingTurns {turn : Turn} (h : turn ∈ [turnAt 0 [openingSnapshot],
    turnAt (1 / 10) [closingSnapshot], turnAt (1 / 10) [], turnAt (1 / 5) []]) :
    ∀ message ∈ turn.arrivals, App.WellFormed message := by
  intro message hmessage
  simp only [List.mem_cons, List.not_mem_nil, or_false] at h
  rcases h with rfl | rfl | rfl | rfl
  · rw [List.mem_singleton.mp hmessage]
    exact wellFormed_openingSnapshot
  · rw [List.mem_singleton.mp hmessage]
    exact wellFormed_closingSnapshot
  · cases hmessage
  · cases hmessage

/-- It fades in and its flash fades out; when it has gone its ghost fades out. -/
theorem animations_advance_opening :
    (let frame := (afterTurns (640, 480) ([] ++ [turnAt 0 [openingSnapshot]]) :
        Window plainToolkit).app.cell "s1"
      let frame' := (afterTurns (640, 480)
        ([] ++ [turnAt 0 [openingSnapshot]] ++ ([] ++ [turnAt (1 / 10) []])) :
          Window plainToolkit).app.cell "s1"
      frame.alphaAt 0 ≤ frame'.alphaAt (1 / 10) ∧
        frame'.boostAt (1 / 10) ≤ frame.boostAt 0) ∧
      (let frame := (afterTurns (640, 480)
          ([turnAt 0 [openingSnapshot]] ++ [turnAt (1 / 10) [closingSnapshot]]) :
            Window plainToolkit).app.cell "s1"
        let frame' := (afterTurns (640, 480)
          ([turnAt 0 [openingSnapshot]] ++ [turnAt (1 / 10) [closingSnapshot]] ++
            ([] ++ [turnAt (1 / 5) []])) : Window plainToolkit).app.cell "s1"
        frame'.ghostAlphaAt (1 / 5) ≤ frame.ghostAlphaAt (1 / 10)) := by
  have hcomes := @animations_advance plainToolkit (640, 480) [] (turnAt 0 [openingSnapshot]) []
    (turnAt (1 / 10) []) (fun other hother => wellFormed_openingTurns (by
      simp only [List.nil_append, List.singleton_append, List.mem_cons, List.not_mem_nil,
        or_false] at hother ⊢
      tauto)) (by decide +kernel) "s1"
  have hgoes := @animations_advance plainToolkit (640, 480) [turnAt 0 [openingSnapshot]]
    (turnAt (1 / 10) [closingSnapshot]) [] (turnAt (1 / 5) []) (fun other hother =>
      wellFormed_openingTurns (by
        simp only [List.nil_append, List.cons_append, List.mem_cons, List.not_mem_nil,
          or_false] at hother ⊢
        tauto)) (by decide +kernel) "s1"
  exact ⟨⟨hcomes.1 (throughout_drawing rfl rfl rfl), hcomes.2.1 (throughout_drawing rfl rfl rfl)⟩,
    hgoes.2.2 (throughout_drawing rfl (by decide +kernel) (by decide +kernel))⟩

end Window

end Frontend
end SiliconOffice
