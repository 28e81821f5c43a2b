import SiliconOffice.Frontend.Desks
import SiliconOffice.Frontend.Frames

/-!
# Who is on a frame

The desks of a frame, in the order in which they are drawn: `seats` lists whom they belong to,
where they stand and how much of them is to be seen.  On a frame of a settled state everyone
who is shown has one desk, no two desks meet, and they stand below the usage bar.
-/

namespace SiliconOffice
namespace Frontend

open Library Python

/-- The place and the alpha of a desk that is drawn on the screen. -/
def ScreenOp.desk? : ScreenOp → Option ((Int × Int) × Option Int)
  | .desk _ alpha topleft => some (topleft, alpha)
  | _ => none

/-- The desks that are drawn, in order. -/
def desksOf (ops : List ScreenOp) : List ((Int × Int) × Option Int) :=
  ops.filterMap ScreenOp.desk?

theorem desksOf_append (ops later : List ScreenOp) :
    desksOf (ops ++ later) = desksOf ops ++ desksOf later :=
  List.filterMap_append

/-- A session at its desk. -/
structure Seat where
  sid : DictKey
  rect : Rect
  alpha : ℚ

/-- The desk of a session, if it has one. -/
def seat? (layout : Layout) (officeSize : Int × Int) (sid : DictKey) (alpha : ℚ) : Option Seat :=
  (layout.deskRect sid officeSize).map fun rect => ⟨sid, rect.move 0 usageBarHeight, alpha⟩

/-- What a seat looks like among the desks of a frame. -/
def Seat.drawn (seat : Seat) : (Int × Int) × Option Int :=
  (seat.rect.topleft, fadeOf seat.alpha)

/-- The desks of the agents, and then those of the ghosts. -/
def App.seats (app : App) (windowSize : Int × Int) (now : ℚ) : List Seat :=
  (app.agents.items.filterMap fun item =>
    seat? app.layout (Window.officeSize windowSize) item.1 (app.alphaOf now item.1)) ++
  app.ghosts.items.filterMap fun item =>
    seat? app.layout (Window.officeSize windowSize) item.1 (item.2.alphaAt now)

variable {toolkit : Toolkit}

/-! ## The desks of a scene -/

theorem desksOf_blitTexts (rect : Rect) (alpha : Option Int) (textY : Int)
    (texts : List TextSurface) : desksOf (blitTexts rect alpha textY texts) = [] := by
  induction texts generalizing textY with
  | nil => rfl
  | cons text rest ih => exact ih _

section picture

variable {rect : Rect} {agent : Json} {animTick alpha boost : ℚ} {ops : List ScreenOp}

/-- An agent is drawn with one desk. -/
theorem desksOf_picture (h : picture toolkit rect agent animTick alpha boost = .ok ops) :
    desksOf ops = [(rect.topleft, fadeOf alpha)] := by
  obtain ⟨state, color, sprite, texts, -, rfl⟩ := parts_of_picture h
  exact congrArg ((rect.topleft, fadeOf alpha) :: ·) (desksOf_blitTexts ..)

theorem desksOf_deskPicture {layout : Layout} {officeSize : Int × Int} {sid : DictKey}
    (h : deskPicture toolkit layout officeSize sid agent animTick alpha boost = .ok ops) :
    desksOf ops = ((seat? layout officeSize sid alpha).map Seat.drawn).toList := by
  unfold seat?
  cases hrect : layout.deskRect sid officeSize with
  | none =>
      rw [deskPicture_of_none hrect] at h
      rw [← Except.ok.inj h]
      rfl
  | some rect =>
      rw [deskPicture_of_some hrect] at h
      exact desksOf_picture h

end picture

theorem desksOf_pictures {ι : Type} {items : List ι} {piece : ι → Except PyErr (List ScreenOp)}
    {seat : ι → Option Seat} {ops : List ScreenOp}
    (hpiece : ∀ item part, piece item = .ok part →
      desksOf part = ((seat item).map Seat.drawn).toList)
    (h : pictures (items.map piece) = .ok ops) :
    desksOf ops = (items.filterMap seat).map Seat.drawn := by
  induction items generalizing ops with
  | nil =>
      rw [← Except.ok.inj h]
      rfl
  | cons item rest ih =>
      obtain ⟨part, hpart, hrest⟩ := exists_of_bind_ok h
      obtain ⟨later, hlater, hops⟩ := exists_of_bind_ok hrest
      rw [← Except.ok.inj hops, desksOf_append, hpiece item part hpart, ih hlater,
        List.filterMap_cons]
      cases seat item <;> rfl

theorem desksOf_bannerPicture {windowSize : Int × Int} {ops : List ScreenOp}
    (h : bannerPicture toolkit windowSize = .ok ops) : desksOf ops = [] := by
  unfold bannerPicture at h
  obtain ⟨surface, -, h⟩ := exists_of_bind_ok h
  obtain ⟨text, -, h⟩ := exists_of_bind_ok h
  rw [← Except.ok.inj h]
  rfl

theorem desksOf_statPicture {label stat : String} {x centerY : Int}
    {drawn : Int × List ScreenOp} (h : statPicture toolkit label stat x centerY = .ok drawn) :
    desksOf drawn.2 = [] := by
  unfold statPicture at h
  obtain ⟨labelSurf, -, h⟩ := exists_of_bind_ok h
  obtain ⟨statSurf, -, h⟩ := exists_of_bind_ok h
  rw [← Except.ok.inj h]
  rfl

theorem desksOf_usagePicture {windowSize : Int × Int} {usage : UsageSnapshot}
    {ops : List ScreenOp} (h : usagePicture toolkit windowSize usage = .ok ops) :
    desksOf ops = [] := by
  unfold usagePicture at h
  obtain ⟨session, hsession, h⟩ := exists_of_bind_ok h
  obtain ⟨week, hweek, h⟩ := exists_of_bind_ok h
  rw [← Except.ok.inj h]
  show desksOf (session.2 ++ week.2) = []
  rw [desksOf_append, desksOf_statPicture hsession, desksOf_statPicture hweek]
  rfl

/-- **The desks of a scene are the seats of its state.** -/
theorem desksOf_scene {app : App} {windowSize : Int × Int} {now animTick : ℚ}
    {usage : UsageSnapshot} {ops : List ScreenOp}
    (h : app.scene toolkit windowSize now animTick usage = .ok ops) :
    desksOf ops = (app.seats windowSize now).map Seat.drawn := by
  obtain ⟨background, agents, ghosts, banner, bar, hbackground, hagents, hghosts, hbanner, hbar,
    rfl⟩ := App.parts_of_scene h
  have hbackgroundDesks : desksOf background = [] := by
    obtain ⟨surface, -, rfl⟩ := exists_of_map_ok hbackground
    rfl
  have hbannerDesks : desksOf banner = [] := by
    rcases hbanner with ⟨-, rfl⟩ | ⟨-, hbanner⟩
    · rfl
    · exact desksOf_bannerPicture hbanner
  show desksOf (background ++ (agents ++ (ghosts ++ (banner ++ bar)))) = _
  simp only [desksOf_append, hbackgroundDesks, hbannerDesks, desksOf_usagePicture hbar,
    List.nil_append, List.append_nil]
  rw [App.seats, List.map_append]
  congr 1
  · exact desksOf_pictures (fun item part hpart => desksOf_deskPicture hpart) hagents
  · exact desksOf_pictures (fun item part hpart => desksOf_deskPicture hpart) hghosts

/-! ## Records that cannot be drawn -/

/-- A record that `draw_agent` can get through: its state has a colour, and the three texts
that are made of it can be rendered in theirs. -/
structure Drawable (toolkit : Toolkit) (agent : Json) : Prop where
  object : agent.isObject = true
  projectName : ∃ surface,
    toolkit.render .name ((agent.get? "project_name").getD (.str "?")) textColor = .ok surface
  actionLabel : ∃ color surface,
    colorForState ((agent.get? "state").getD (.str "idle")) = .ok color ∧
      toolkit.render .label ((agent.get? "action_label").getD (.str "")) color = .ok surface
  sessionId : ∃ text surface, (agent.get? "session_id").getD (.str "") = .str text ∧
    toolkit.render .id (.str (upTo 8 text)) subtextColor = .ok surface

/-- Whatever has been drawn was drawable. -/
theorem drawable_of_picture {rect : Rect} {agent : Json} {animTick alpha boost : ℚ}
    {ops : List ScreenOp} (h : picture toolkit rect agent animTick alpha boost = .ok ops) :
    Drawable toolkit agent := by
  have hobject : agent.isObject = true := by
    by_contra hvalue
    rw [picture, Json.get_of_not_isObject (eq_false_of_ne_true hvalue)] at h
    cases h
  unfold picture at h
  obtain ⟨state, hstate, h⟩ := exists_of_bind_ok h
  obtain ⟨color, hcolor, h⟩ := exists_of_bind_ok h
  obtain ⟨surface, -, h⟩ := exists_of_bind_ok h
  obtain ⟨sprite, -, h⟩ := exists_of_bind_ok h
  obtain ⟨texts, hpicture, -⟩ := exists_of_bind_ok h
  unfold pictureTexts at hpicture
  obtain ⟨sessionId, hsession, hpicture⟩ := exists_of_bind_ok hpicture
  obtain ⟨projectName, hproject, hpicture⟩ := exists_of_bind_ok hpicture
  obtain ⟨key, -, hpicture⟩ := exists_of_bind_ok hpicture
  obtain ⟨nameSurf, hname, hpicture⟩ := exists_of_bind_ok hpicture
  obtain ⟨actionLabel, haction, hpicture⟩ := exists_of_bind_ok hpicture
  obtain ⟨labelSurf, hlabel, hpicture⟩ := exists_of_bind_ok hpicture
  obtain ⟨idText, hshort, hpicture⟩ := exists_of_bind_ok hpicture
  obtain ⟨idSurf, hid, -⟩ := exists_of_bind_ok hpicture
  rw [Json.get_of_isObject hobject] at hstate hsession hproject haction
  refine ⟨hobject, ?_, ?_, ?_⟩
  · rw [Except.ok.inj hproject]
    exact ⟨nameSurf, hname⟩
  · rw [Except.ok.inj hstate, Except.ok.inj haction]
    exact ⟨color, labelSurf, hcolor, hlabel⟩
  · rw [Except.ok.inj hsession]
    unfold shortId at hshort
    split at hshort
    · cases hshort
      exact ⟨_, idSurf, rfl, hid⟩
    · cases hshort

/-- The record belongs to an agent or to a ghost. -/
def App.Shows (app : App) (agent : Json) : Prop :=
  (∃ sid, app.agents.get? sid = some agent) ∨
    ∃ sid ghost, app.ghosts.get? sid = some ghost ∧ ghost.agent = agent

theorem exists_of_pictures {ι : Type} {items : List ι}
    {piece : ι → Except PyErr (List ScreenOp)} {ops : List ScreenOp}
    (h : pictures (items.map piece) = .ok ops) {item : ι} (hitem : item ∈ items) :
    ∃ part, piece item = .ok part := by
  induction items generalizing ops with
  | nil => cases hitem
  | cons head rest ih =>
      obtain ⟨part, hpart, hrest⟩ := exists_of_bind_ok h
      obtain ⟨later, hlater, -⟩ := exists_of_bind_ok hrest
      rcases List.mem_cons.mp hitem with rfl | hmem
      · exact ⟨part, hpart⟩
      · exact ih hlater hmem

/-- A scene of a settled state can only be drawn when each record of it can. -/
theorem drawable_of_scene {app : App} (happ : App.Settled app) {windowSize : Int × Int}
    {now animTick : ℚ} {usage : UsageSnapshot} {ops : List ScreenOp}
    (h : app.scene toolkit windowSize now animTick usage = .ok ops) {agent : Json}
    (hagent : app.Shows agent) : Drawable toolkit agent := by
  obtain ⟨background, agents, ghosts, banner, bar, -, hagents, hghosts, -, -, -⟩ :=
    App.parts_of_scene h
  have hdesk : ∀ sid, (app.agents.has sid || app.ghosts.has sid) = true →
      ∃ rect, app.layout.deskRect sid (Window.officeSize windowSize) = some rect := by
    intro sid hshown
    have hseated := happ.consistent.seated sid
    rw [hshown] at hseated
    obtain ⟨slot, hslot⟩ := Option.isSome_iff_exists.mp hseated
    exact ⟨_, Layout.deskRect_eq_some_iff.mpr ⟨slot, hslot, rfl⟩⟩
  rcases hagent with ⟨sid, hget⟩ | ⟨sid, ghost, hget, rfl⟩
  · obtain ⟨item, hitem, hsame, rfl⟩ := OrderedDict.get?_eq_some_iff.mp hget
    obtain ⟨rect, hrect⟩ := hdesk item.1 (by
      rw [OrderedDict.has_of_mem_keys (List.mem_map_of_mem hitem)]
      rfl)
    obtain ⟨part, hpart⟩ := exists_of_pictures hagents hitem
    rw [deskPicture_of_some hrect] at hpart
    exact drawable_of_picture hpart
  · obtain ⟨item, hitem, hsame, rfl⟩ := OrderedDict.get?_eq_some_iff.mp hget
    obtain ⟨rect, hrect⟩ := hdesk item.1 (by
      rw [OrderedDict.has_of_mem_keys (List.mem_map_of_mem hitem), Bool.or_true])
    obtain ⟨part, hpart⟩ := exists_of_pictures hghosts hitem
    rw [deskPicture_of_some hrect] at hpart
    exact drawable_of_picture hpart

/-! ## The seats of a settled state -/

/-- Everyone who is shown has one seat and nobody else has one; of any two of them one ends
before the other begins, from top to bottom; they stand below the usage bar, inside the window
across, and inside it below when the rows fit. -/
structure WellSeated (app : App) (windowSize : Int × Int) (seats : List Seat) : Prop where
  everyone : seats.map Seat.sid = app.agents.keys ++ app.ghosts.keys
  apart : seats.Pairwise fun seat other =>
    seat.rect.bottom ≤ other.rect.top ∨ other.rect.bottom ≤ seat.rect.top
  below : ∀ seat ∈ seats, usageBarHeight ≤ seat.rect.top
  across : deskMargin < windowSize.1 → ∀ seat ∈ seats,
    0 ≤ seat.rect.left ∧ seat.rect.left < seat.rect.right ∧ seat.rect.right ≤ windowSize.1
  inside : usageBarHeight + app.layout.rows * (deskHeight + deskMinGap) ≤ windowSize.2 →
    ∀ seat ∈ seats, seat.rect.bottom ≤ windowSize.2

theorem map_sid_filterMap {ν : Type} {layout : Layout} {officeSize : Int × Int}
    {items : List (DictKey × ν)} {alpha : DictKey × ν → ℚ}
    (h : ∀ item ∈ items, layout.slotOfSession.has item.1 = true) :
    (items.filterMap fun item => seat? layout officeSize item.1 (alpha item)).map Seat.sid =
      items.map Prod.fst := by
  induction items with
  | nil => rfl
  | cons item rest ih =>
      obtain ⟨slot, hslot⟩ := Option.isSome_iff_exists.mp (h item List.mem_cons_self)
      have hseat : ∃ rect, seat? layout officeSize item.1 (alpha item) =
          some ⟨item.1, rect, alpha item⟩ := by
        unfold seat? Layout.deskRect
        rw [hslot]
        exact ⟨_, rfl⟩
      obtain ⟨rect, hrect⟩ := hseat
      rw [List.filterMap_cons, hrect]
      exact congrArg (item.1 :: ·) (ih fun other hmem => h other (List.mem_cons_of_mem _ hmem))

namespace App

variable {app : App} {windowSize : Int × Int} {now : ℚ}

theorem Settled.map_sid_seats (h : Settled app) :
    (app.seats windowSize now).map Seat.sid = app.agents.keys ++ app.ghosts.keys := by
  have hseated : ∀ key, (app.agents.has key || app.ghosts.has key) = true →
      app.layout.slotOfSession.has key = true := by
    intro key hshown
    rw [h.consistent.seated, hshown]
  unfold seats
  rw [List.map_append]
  congr 1
  · apply map_sid_filterMap
    intro item hitem
    apply hseated
    rw [OrderedDict.has_of_mem_keys (List.mem_map_of_mem hitem)]
    rfl
  · apply map_sid_filterMap
    intro item hitem
    apply hseated
    rw [OrderedDict.has_of_mem_keys (List.mem_map_of_mem hitem), Bool.or_true]

theorem Settled.pairwise_keys (h : Settled app) :
    (app.agents.keys ++ app.ghosts.keys).Pairwise fun key other => (key == other) = false := by
  refine List.pairwise_append.mpr ⟨app.agents.distinct_keys, app.ghosts.distinct_keys, ?_⟩
  intro agent hagent ghost hghost
  refine eq_false_of_ne_true fun hsame => ?_
  have hapart := h.consistent.apart agent (OrderedDict.has_of_mem_keys hagent)
  rw [app.ghosts.has_congr hsame, OrderedDict.has_of_mem_keys hghost] at hapart
  cases hapart

/-- A seat is the desk of its session, below the usage bar. -/
theorem rect_of_mem_seats {seat : Seat} (h : seat ∈ app.seats windowSize now) :
    ∃ rect, app.layout.deskRect seat.sid (Window.officeSize windowSize) = some rect ∧
      seat.rect = rect.move 0 usageBarHeight := by
  have hseat : ∀ sid alpha, seat? app.layout (Window.officeSize windowSize) sid alpha = some seat →
      ∃ rect, app.layout.deskRect seat.sid (Window.officeSize windowSize) = some rect ∧
        seat.rect = rect.move 0 usageBarHeight := by
    intro sid alpha hsome
    obtain ⟨rect, hrect, rfl⟩ := Option.map_eq_some_iff.mp hsome
    exact ⟨rect, hrect, rfl⟩
  rcases List.mem_append.mp h with hagent | hghost
  · obtain ⟨item, -, hsome⟩ := List.mem_filterMap.mp hagent
    exact hseat _ _ hsome
  · obtain ⟨item, -, hsome⟩ := List.mem_filterMap.mp hghost
    exact hseat _ _ hsome

theorem above_move {rect other : Rect} (h : rect.bottom ≤ other.top) (dy : Int) :
    (rect.move 0 dy).bottom ≤ (other.move 0 dy).top := by
  simp only [Rect.move, Rect.bottom] at h ⊢
  omega

/-- **The seats of a settled state**, in every window. -/
theorem Settled.wellSeated (h : Settled app) (windowSize : Int × Int) (now : ℚ) :
    WellSeated app windowSize (app.seats windowSize now) := by
  obtain ⟨calls, hcalls⟩ := h.laid
  have hkept := Layout.kept_afterCalls calls
  rw [← hcalls] at hkept
  refine ⟨h.map_sid_seats, ?_, ?_, ?_, ?_⟩
  · -- different sessions have different slots, and one slot is above the other
    have hkeys := h.pairwise_keys
    rw [← h.map_sid_seats, List.pairwise_map] at hkeys
    refine List.Pairwise.imp_of_mem (fun {seat other} hseat hother hdifferent => ?_) hkeys
    obtain ⟨rect, hrect, hmoved⟩ := rect_of_mem_seats hseat
    obtain ⟨rect', hrect', hmoved'⟩ := rect_of_mem_seats hother
    obtain ⟨slot, hslot, -⟩ := Layout.deskRect_eq_some_iff.mp hrect
    obtain ⟨slot', hslot', -⟩ := Layout.deskRect_eq_some_iff.mp hrect'
    rw [hmoved, hmoved']
    rcases lt_trichotomy slot slot' with hlt | rfl | hgt
    · exact .inl (above_move (Layout.bottom_le_top hslot hslot' hlt hrect hrect') _)
    · rw [OrderedDict.beq_of_get?_eq hkept.shared.nodup hslot hslot'] at hdifferent
      cases hdifferent
    · exact .inr (above_move (Layout.bottom_le_top hslot' hslot hgt hrect' hrect) _)
  · intro seat hseat
    obtain ⟨rect, hrect, hmoved⟩ := rect_of_mem_seats hseat
    obtain ⟨slot, -, rfl⟩ := Layout.deskRect_eq_some_iff.mp hrect
    have htop := intOf_nonneg
      (app.layout.deskY_nonneg (Window.officeSize windowSize).2 slot)
    rw [hmoved]
    simp only [Rect.move, Window.officeSize] at htop ⊢
    omega
  · intro hwidth seat hseat
    obtain ⟨rect, hrect, hmoved⟩ := rect_of_mem_seats hseat
    obtain ⟨slot, -, rfl⟩ := Layout.deskRect_eq_some_iff.mp hrect
    have hleft := intOf_nonneg (Layout.deskX_nonneg windowSize.1)
    have hright := intOf_add_le_int (Layout.deskX_nonneg windowSize.1)
      (Layout.deskX_add_le windowSize.1)
    rw [hmoved]
    simp only [Rect.move, Rect.right, deskMaxWidth, deskMargin, Window.officeSize] at *
    omega
  · intro hfits seat hseat
    obtain ⟨rect, hrect, hmoved⟩ := rect_of_mem_seats hseat
    obtain ⟨slot, hslot, rfl⟩ := Layout.deskRect_eq_some_iff.mp hrect
    have hlt : slot < app.layout.nextSlot := hkept.shared.lt (OrderedDict.mem_values hslot)
    have hrow : slot < app.layout.rows := by
      rw [hkept.rows]
      exact lt_max_of_lt_right hlt
    have hoffice : app.layout.rows * (deskHeight + deskMinGap) ≤
        (Window.officeSize windowSize).2 := by
      simp only [Window.officeSize, usageBarHeight, deskHeight, deskMinGap] at *
      omega
    have hbottom := intOf_add_le_int
      (app.layout.deskY_nonneg (Window.officeSize windowSize).2 slot)
      (Layout.deskY_add_le_height hrow hoffice)
    rw [hmoved]
    simp only [Rect.move, Rect.bottom, Window.officeSize, usageBarHeight, deskHeight, deskMinGap]
      at *
    omega

end App

namespace Window

/-- **Everyone is on the frame, at a desk of their own.**  A frame that is presented after any
run of well-formed messages has one desk for each agent and each ghost and no other, in their
places and as far faded as the clock says. -/
theorem everyone_shown (windowSize : Int × Int) (turns : List Turn) (turn : Turn)
    (harrivals : ∀ other ∈ turns ++ [turn], ∀ message ∈ other.arrivals, App.WellFormed message)
    {ops : List ScreenOp} :
    let window : Window toolkit := afterTurns windowSize (turns ++ [turn])
    let seats := window.app.seats window.windowSize turn.drawnAt
    frameOf (Feed.afterTurns turns) turn window = some ops →
      desksOf ops = seats.map Seat.drawn ∧ WellSeated window.app window.windowSize seats := by
  intro window seats hframe
  have hsettled := (@settled_of_wellFormed toolkit windowSize _ harrivals).2.2.2
  exact ⟨desksOf_scene (scene_of_frameOf hframe), hsettled.wellSeated _ _⟩

/-! ### One session -/

theorem wellFormed_turnAt {now : ℚ} {turn : Turn} (h : turn ∈ [turnAt now [openingSnapshot]]) :
    ∀ message ∈ turn.arrivals, App.WellFormed message := by
  intro message hmessage
  rw [List.mem_singleton.mp h] at hmessage
  rw [List.mem_singleton.mp hmessage]
  exact wellFormed_openingSnapshot

theorem isSome_opening :
    (frameOf (Feed.afterTurns []) (turnAt 0 [openingSnapshot])
      (afterTurns (640, 480) ([] ++ [turnAt 0 [openingSnapshot]]) :
        Window plainToolkit)).isSome = true := by
  decide +kernel

theorem everyone_shown_opening :
    let window : Window plainToolkit := afterTurns (640, 480) ([] ++ [turnAt 0 [openingSnapshot]])
    let seats := window.app.seats window.windowSize (turnAt 0 [openingSnapshot]).drawnAt
    ∃ ops, desksOf ops = seats.map Seat.drawn ∧ WellSeated window.app window.windowSize seats := by
  obtain ⟨ops, hops⟩ := Option.isSome_iff_exists.mp isSome_opening
  exact ⟨ops, everyone_shown (640, 480) [] (turnAt 0 [openingSnapshot])
    (fun other hother => wellFormed_turnAt hother) hops⟩

/-! ## A frozen screen -/

/-- While some record that is shown cannot be drawn, after well-formed messages, no turn
presents anything. -/
theorem presented_of_not_drawable (htexts : toolkit.RendersTexts) (windowSize : Int × Int)
    (turns later : List Turn)
    (harrivals : ∀ turn ∈ turns ++ later, ∀ message ∈ turn.arrivals, App.WellFormed message)
    (hstuck : ∀ before turn, before ++ [turn] <+: later → ∃ agent,
      (afterTurns windowSize (turns ++ before ++ [turn]) : Window toolkit).app.Shows agent ∧
        ¬ Drawable toolkit agent) :
    (afterTurns windowSize (turns ++ later) : Window toolkit).display.presented =
      (afterTurns windowSize turns : Window toolkit).display.presented := by
  induction later using List.reverseRecOn with
  | nil => rw [List.append_nil]
  | append_singleton before turn ih =>
      have hbefore := ih
        (fun other hother => harrivals other (by
          rw [← List.append_assoc]
          exact List.mem_append_left _ hother))
        (fun earlier other hbegins => hstuck earlier other (hbegins.trans (List.prefix_append ..)))
      obtain ⟨agent, hshows, hundrawable⟩ := hstuck before turn (List.prefix_refl _)
      have hpresented := presented_perform htexts
        (refines_afterTurns windowSize (turns ++ before)) turn
      rw [← List.append_assoc] at harrivals ⊢
      rw [← afterTurns_concat] at hpresented
      have hsettled := (@settled_of_wellFormed toolkit windowSize _ harrivals).2.2.2
      have hnone : frameOf (Feed.afterTurns (turns ++ before)) turn
          (afterTurns windowSize (turns ++ before ++ [turn]) : Window toolkit) = none := by
        refine Option.eq_none_iff_forall_ne_some.mpr fun ops hframe => hundrawable ?_
        exact drawable_of_scene hsettled (scene_of_frameOf hframe) hshows
      rw [hpresented, hnone, Option.none_or]
      exact hbefore

/-- **One record that cannot be drawn freezes the screen**, and nothing else: while some record
that is shown cannot be drawn, after well-formed messages, what was presented last stays, and
yet each turn handles all that has arrived. -/
theorem frozen_of_not_drawable (htexts : toolkit.RendersTexts) (windowSize : Int × Int)
    (turns later : List Turn)
    (harrivals : ∀ turn ∈ turns ++ later, ∀ message ∈ turn.arrivals, App.WellFormed message)
    (hstuck : ∀ before turn, before ++ [turn] <+: later → ∃ agent,
      (afterTurns windowSize (turns ++ before ++ [turn]) : Window toolkit).app.Shows agent ∧
        ¬ Drawable toolkit agent) :
    let window : Window toolkit := afterTurns windowSize (turns ++ later)
    window.display.presented =
        (afterTurns windowSize turns : Window toolkit).display.presented ∧
      window.queue = [] ∧
      App.messages (Feed.afterTurns (turns ++ later)).updates =
        (turns ++ later).flatMap Turn.arrivals := by
  obtain ⟨hqueue, hhandled, -, -⟩ := @settled_of_wellFormed toolkit windowSize _ harrivals
  exact ⟨presented_of_not_drawable htexts windowSize turns later harrivals hstuck, hqueue,
    hhandled⟩

/-! ### A tool whose name has a NUL in it -/

/-- A text that a hook can give and that no font renders. -/
def nulLabel : String :=
  "Using " ++ String.ofList [Char.ofNat 0]

/-- What the daemon sends when a session uses that tool. -/
def nulSnapshot : Json :=
  .obj
    [("type", .str "snapshot"),
     ("agents", .obj
      [("s1", .obj [("session_id", .str "s1"), ("action_label", .str nulLabel)])])]

theorem wellFormed_nulSnapshot : App.WellFormed nulSnapshot := by
  refine ⟨rfl, ⟨fun agents hagents item hitem => ?_, fun agent hagent => ?_⟩,
    fun value hvalue => ?_, fun agents hagents => ?_, fun value hvalue => ?_⟩
  · cases hagents
    rw [List.mem_singleton.mp hitem]
    rfl
  · cases hagent
  · cases hvalue
    rfl
  · cases hagents
    exact List.nodup_singleton _
  · cases hvalue

/-- The window stays as it was before the first turn, which has handled the snapshot. -/
theorem frozen_of_not_drawable_nul :
    let window : Window plainToolkit := afterTurns (640, 480) ([] ++ [turnAt 0 [nulSnapshot]])
    window.display.presented =
        (afterTurns (640, 480) [] : Window plainToolkit).display.presented ∧
      window.queue = [] ∧
      App.messages (Feed.afterTurns ([] ++ [turnAt 0 [nulSnapshot]])).updates =
        ([] ++ [turnAt 0 [nulSnapshot]]).flatMap Turn.arrivals := by
  refine frozen_of_not_drawable rendersTexts_plainToolkit (640, 480) [] [turnAt 0 [nulSnapshot]]
    (fun turn hturn message hmessage => ?_) fun before turn hbegins => ?_
  · rw [List.mem_singleton.mp hturn] at hmessage
    rw [List.mem_singleton.mp hmessage]
    exact wellFormed_nulSnapshot
  · obtain ⟨rfl, hbegins⟩ : before = [] ∧ [turn] <+: [turnAt 0 [nulSnapshot]] := by
      cases before with
      | nil => exact ⟨rfl, hbegins⟩
      | cons head rest =>
          have hlength := hbegins.length_le
          simp at hlength
    obtain ⟨rfl, -⟩ := List.cons_prefix_cons.mp hbegins
    have hagents := (@refines_afterTurns plainToolkit (640, 480)
      ([] ++ [] ++ [turnAt 0 [nulSnapshot]])).app.agents
    refine ⟨.obj [("session_id", .str "s1"), ("action_label", .str nulLabel)],
      .inl ⟨.str "s1", ?_⟩, ?_⟩
    · rw [hagents]
      rfl
    intro hdrawable
    obtain ⟨color, surface, -, hlabel⟩ := hdrawable.actionLabel
    have hnul : Char.ofNat 0 ∈ nulLabel.toList := by decide
    have hraises : plainToolkit.render .label (.str nulLabel) color = .error .valueError := by
      simp only [plainToolkit, if_pos hnul]
    cases hraises.symm.trans hlabel

end Window

end Frontend
end SiliconOffice
