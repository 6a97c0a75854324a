/-
**Handles are cut at the domain.**

A handle that is clamped or mirrored keeps its direction and loses what is beyond the domain. In a
drag the anchor of a handle is moved before it, so what cuts the handle is where the anchor ends up,
and what is moved later leaves both alone. Handles that the drag does not move are not looked at:
one of them may be carried out of the domain by its anchor.

* `clampHandle_greatest`, `mirrorHandle_greatest`: one handle.
* `Session.Pulls`: the handles that a drag moves.
* `Session.carryAll_mem`: they end up in the domain.
* `Session.handles_cut`: handles, mirrored handles and whole drags.
-/
import Mathlib
import Easing.Proofs.Selection
import Easing.Proofs.Session.Latest

set_option linter.unusedSectionVars false

namespace Easing

open Easing.Path

/-! ### One handle -/

section Handles

variable {domain : ℝ}

/-- **A clamped handle is the greatest share of the way to its target** that ends in the domain, and
the way to a target beyond the domain always crosses the bound. -/
theorem clampHandle_greatest {knot : Knot ℝ} (inside : 0 ≤ knot.point.x ∧ knot.point.x ≤ domain)
    (side : Side) (target : Point ℝ) :
    ∃ share handle, IsGreatest (sharesWithin domain knot.point.x (target.x - knot.point.x)) share ∧
      clampHandle knot side target domain = .ok handle ∧
      handle = (target - knot.point).scale share ∧
      (0 ≤ knot.point.x + handle.x ∧ knot.point.x + handle.x ≤ domain) ∧
      (¬(0 ≤ target.x ∧ target.x ≤ domain) → boundCrossing knot.point target domain ≠ none) := by
  refine ⟨_, _, isGreatest_reachShare inside target, clampHandle_real knot side inside, rfl,
    reach_mem inside target, fun outside => ?_⟩
  rw [boundCrossing_real inside outside]
  exact Option.some_ne_none _

/-- **A mirrored handle is the greatest share of its leader, turned round**, that ends in the
domain. -/
theorem mirrorHandle_greatest {segment : Segment ℝ}
    (inside : 0 ≤ segment.point.x ∧ segment.point.x ≤ domain) (leader : Side) :
    ∃ share changed,
      IsGreatest (sharesWithin domain segment.point.x (-(segment.handle leader).x)) share ∧
        mirrorHandle segment leader domain = .ok changed ∧ OnlyHandles segment changed ∧
        changed.handle leader = segment.handle leader ∧
        changed.handle leader.opposite = (segment.handle leader).scale (-share) := by
  let target := segment.point - segment.handle leader
  have way : target - segment.point = (segment.handle leader).scale (-1) := by
    show (⟨_ - _ - _, _ - _ - _⟩ : Vec ℝ) = ⟨_ * -1, _ * -1⟩
    rw [sub_sub_cancel_left, sub_sub_cancel_left, mul_neg_one, mul_neg_one]
  have greatest := isGreatest_reachShare inside target
  rw [show target.x - segment.point.x = -(segment.handle leader).x from sub_sub_cancel_left _ _]
    at greatest
  have apart : leader ≠ leader.opposite := by cases leader <;> nofun
  refine ⟨_, _, greatest, Session.mirrorHandle_real leader inside, ?_, ?_, ?_⟩
  · exact onlyHandles_setHandle _ _ _
  · unfold Session.pull
    rw [Segment.handle_setHandle, if_neg apart]
  · unfold Session.pull reach
    rw [Segment.handle_setHandle, if_pos rfl, way]
    show (⟨_ * -1 * _, _ * -1 * _⟩ : Vec ℝ) = ⟨_ * -_, _ * -_⟩
    rw [mul_assoc, mul_assoc, neg_one_mul]

end Handles

namespace Session

/-! ### One move -/

/-- A handle ends in the domain. -/
def HandleInside (domain : ℝ) (segment : Segment ℝ) (side : Side) : Prop :=
  0 ≤ (segment.handlePoint side).x ∧ (segment.handlePoint side).x ≤ domain

section Parts

variable {domain x : ℝ} {paired : Bool} {part : Part} {target : Point ℝ} {segment : Segment ℝ}
  {side : Side}

theorem pull_mem (inside : 0 ≤ segment.point.x ∧ segment.point.x ≤ domain) :
    HandleInside domain (pull domain side target segment) side := by
  have reached := reach_mem inside target
  unfold HandleInside Knot.handlePoint pull
  rwa [Segment.handle_setHandle, if_pos rfl, Segment.point_setHandle]

theorem HandleInside.pull {side' : Side} (inside : HandleInside domain segment side)
    (apart : side ≠ side') : HandleInside domain (pull domain side' target segment) side := by
  unfold HandleInside Knot.handlePoint Session.pull
  rwa [Segment.handle_setHandle, if_neg apart, Segment.point_setHandle]

/-- Handles that are written end in the domain. -/
theorem movePart_mem (inside : 0 ≤ segment.point.x ∧ segment.point.x ≤ domain)
    (written : Writes paired part (.handle side)) :
    HandleInside domain (movePart domain x paired part target segment) side := by
  cases part with
  | anchor => rcases written with same | ⟨-, _, same, -⟩ <;> cases same
  | handle leader =>
    have pulled : HandleInside domain (pull domain leader target segment) leader := pull_mem inside
    have apart : leader ≠ leader.opposite := by cases leader <;> nofun
    unfold movePart
    dsimp only
    cases paired with
    | false =>
      obtain rfl := Part.handle.inj (written.resolve_right nofun)
      exact pulled
    | true =>
      rw [if_pos rfl]
      rcases written with same | ⟨-, _, same, isOpposite⟩
      · obtain rfl := Part.handle.inj same
        exact pulled.pull apart
      · obtain rfl := Part.handle.inj same
        obtain rfl := Part.handle.inj isOpposite
        refine pull_mem ?_
        unfold Session.pull
        rwa [Segment.point_setHandle]

end Parts

/-! ### All moves -/

section Moving

variable {selection : Selection ℝ} {paired : Bool} {target : Point ℝ → Point ℝ}
  {moves : List (Item × Point ℝ)} {path : Path ℝ} {id : SegmentId} {side : Side}

/-- What moves a handle is a handle of the same anchor, which is moved after the anchor. -/
theorem WritesItem.rank_anchor_lt {item : Item}
    (written : WritesItem paired item ⟨id, .handle side⟩) :
    (Item.anchor id).rank < item.rank := by
  obtain ⟨segment, part⟩ := written
  have handle : item.part ≠ .anchor := by
    intro isAnchor
    rw [isAnchor] at part
    rcases part with same | ⟨-, _, same, -⟩ <;> cases same
  have less := Session.rank_anchor_lt handle
  rwa [← segment] at less

/-- **Every handle that the moves write ends in the domain.** The last move that writes it puts it
there, after its anchor was moved. -/
theorem carryAll_mem (ranked : moves.Pairwise fun first second => first.1.rank < second.1.rank)
    (inside : Inside path) (written : WritesAny paired moves ⟨id, .handle side⟩)
    {segment : Segment ℝ}
    (found : (carryAll selection paired target moves path).find? id = some segment) :
    HandleInside path.domain segment side := by
  induction moves generalizing path with
  | nil =>
    obtain ⟨move, member, -⟩ := written
    cases member
  | cons move moves ih =>
    obtain ⟨first, ranked⟩ := List.pairwise_cons.mp ranked
    by_cases later : WritesAny paired moves ⟨id, .handle side⟩
    · have carried := inside.carry selection paired move.1 (target move.2)
      exact (ih ranked carried later found :)
    · obtain ⟨here, member, writes⟩ := written
      obtain rfl : here = move := by
        refine (List.mem_cons.mp member).resolve_right fun member => ?_
        exact later ⟨here, member, writes⟩
      -- no later move has the rank of the anchor
      have anchored : ¬WritesAny paired moves (Item.anchor id) := by
        intro anchor
        obtain ⟨other, member, isAnchor⟩ := anchor.anchor
        have before := writes.rank_anchor_lt.trans (first other member)
        rw [isAnchor] at before
        exact absurd before (lt_irrefl _)
      have rest : AgreeBut (WritesAny paired moves)
          (carry selection paired path here.1 (target here.2))
          (carryAll selection paired target (here :: moves) path) := carryAll_frame
      obtain ⟨moved, found'⟩ := rest.symm.exists_find? found
      have agree := rest.of_find? found' found
      have put : HandleInside path.domain moved side := by
        unfold carry at found'
        rw [find?_modify _ _ _ fun segment => movePart_id segment, Option.map_eq_some_iff] at found'
        obtain ⟨before, isBefore, rfl⟩ := found'
        rw [if_pos writes.1]
        exact movePart_mem (inside.anchors before (find?_eq_some isBefore).1) writes.2
      unfold HandleInside Knot.handlePoint
      rw [agree.point anchored, agree.handle side later]
      exact put

end Moving

/-! ### Drags -/

section Dragging

variable {α : Type} [Scalar α]

/-- The item is dragged: there was a press, and it has a point to be dragged from. -/
def Drags (session : Session α) (item : Item) : Prop :=
  session.press ≠ none ∧ session.selection.frozen? item ≠ none

/-- A handle is dragged, or turned with alt because its opposite is dragged. -/
def Pulls (session : Session α) (event : PointerEvent α) (id : SegmentId) (side : Side) : Prop :=
  session.Drags (Item.handle id side) ∨
    event.modifiers.alt = true ∧ session.Drags (Item.handle id side.opposite)

theorem drags_iff {session : Session α} {press : PointerEvent α} (isPress : session.press = some press)
    {item : Item} : session.Drags item ↔ ∃ point, (item, point) ∈ moves session.selection := by
  unfold Drags
  rw [isPress, and_iff_right (Option.some_ne_none press), Option.ne_none_iff_exists']
  simp only [Selection.frozen?_eq_some_iff, mem_moves]

end Dragging

variable {session : Session ℝ} {press event : PointerEvent ℝ} {id : SegmentId} {side : Side}

/-- The handles that a drag writes. -/
theorem writesAny_iff (isPress : session.press = some press) :
    WritesAny event.modifiers.alt (moves session.selection) ⟨id, .handle side⟩ ↔
      session.Pulls event id side := by
  unfold Pulls
  rw [drags_iff isPress, drags_iff isPress]
  constructor
  · rintro ⟨⟨⟨segment, part⟩, point⟩, member, same, written⟩
    obtain rfl : id = segment := same
    rcases written with here | ⟨alt, leader, here, opposite⟩
    · obtain rfl : Part.handle side = part := here
      exact .inl ⟨point, member⟩
    · obtain rfl : part = Part.handle leader := here
      obtain rfl := Part.handle.inj opposite
      refine .inr ⟨alt, point, ?_⟩
      rw [Side.opposite_opposite]
      exact member
  · rintro (⟨point, member⟩ | ⟨alt, point, member⟩)
    · exact ⟨_, member, rfl, .inl rfl⟩
    · refine ⟨_, member, rfl, .inr ⟨alt, side.opposite, rfl, ?_⟩⟩
      rw [Side.opposite_opposite]

/-- **After a drag the handles that it moves end in the domain**; the others are where they were,
seen from their anchors. -/
theorem transform_cut (inside : Inside session.path) (event : PointerEvent ℝ) :
    ∃ moved, session.transform event = .ok moved ∧ moved.path.ids = session.path.ids ∧
      ∀ id side,
        (session.Pulls event id side → ∀ segment, moved.path.find? id = some segment →
          HandleInside session.path.domain segment side) ∧
        (¬session.Pulls event id side →
          moved.path.handle? id side = session.path.handle? id side) := by
  cases isPress : session.press with
  | none =>
    have still : ∀ item, ¬session.Drags item := fun item drags => drags.1 isPress
    refine ⟨session, ?_, rfl, fun id side => ⟨?_, fun _ => rfl⟩⟩
    · unfold transform
      rw [isPress]
      rfl
    · rintro (drags | ⟨-, drags⟩) <;> exact absurd drags (still _)
  | some press =>
    obtain ⟨grid, moved⟩ := transform_real inside event isPress
    have frame : AgreeBut (WritesAny event.modifiers.alt (moves session.selection)) session.path
        (dragPath session press event session.path) := carryAll_frame
    refine ⟨_, moved, frame.ids, fun id side => ⟨fun pulls segment found => ?_, fun still => ?_⟩⟩
    · exact carryAll_mem (ranked_moves _) inside ((writesAny_iff isPress).mpr pulls) found
    · exact frame.handle?_eq fun written => still ((writesAny_iff isPress).mp written)

/-- **Handles are cut at the domain and keep their direction.** So does a mirrored handle, and so
does every handle that a drag moves, also when its anchor or its opposite is dragged with it. A
handle that a drag does not move keeps its value. -/
theorem handles_cut {domain : ℝ} (wide : 0 < domain) :
    (∀ (knot : Knot ℝ) (side : Side) (target : Point ℝ),
      0 ≤ knot.point.x ∧ knot.point.x ≤ domain →
        ∃ share handle,
          IsGreatest (sharesWithin domain knot.point.x (target.x - knot.point.x)) share ∧
          clampHandle knot side target domain = .ok handle ∧
          handle = (target - knot.point).scale share ∧
          (0 ≤ knot.point.x + handle.x ∧ knot.point.x + handle.x ≤ domain) ∧
          (¬(0 ≤ target.x ∧ target.x ≤ domain) → boundCrossing knot.point target domain ≠ none)) ∧
    (∀ (segment : Segment ℝ) (leader : Side), 0 ≤ segment.point.x ∧ segment.point.x ≤ domain →
      ∃ share changed,
        IsGreatest (sharesWithin domain segment.point.x (-(segment.handle leader).x)) share ∧
        mirrorHandle segment leader domain = .ok changed ∧ OnlyHandles segment changed ∧
        changed.handle leader = segment.handle leader ∧
        changed.handle leader.opposite = (segment.handle leader).scale (-share)) ∧
    ∀ (session : Session ℝ) (event : PointerEvent ℝ), session.path.domain = domain →
      (∀ segment ∈ session.path.segments, 0 ≤ segment.point.x ∧ segment.point.x ≤ domain) →
        ∃ moved, session.transform event = .ok moved ∧ moved.path.ids = session.path.ids ∧
          ∀ id side,
            (session.Pulls event id side → ∀ segment, moved.path.find? id = some segment →
              HandleInside domain segment side) ∧
            (¬session.Pulls event id side →
              moved.path.handle? id side = session.path.handle? id side) := by
  refine ⟨fun knot side target inside => clampHandle_greatest inside side target,
    fun segment leader inside => mirrorHandle_greatest inside leader, ?_⟩
  rintro session event rfl anchors
  exact transform_cut ⟨wide.le, anchors⟩ event

/-! ### A handle that is carried along -/

/-- A path whose middle anchor has a handle that is shorter than the way to the end. -/
noncomputable def leaningMiddle : Path ℝ :=
  { segments :=
      [⟨⟨⟨0, 0⟩, ⟨0, 0⟩, ⟨0, 0⟩⟩, ⟨0⟩⟩, ⟨⟨⟨1 / 2, 1 / 2⟩, ⟨0, 0⟩, ⟨3 / 8, 0⟩⟩, ⟨1⟩⟩,
        ⟨⟨⟨1, 1⟩, ⟨0, 0⟩, ⟨0, 0⟩⟩, ⟨2⟩⟩]
    domain := 1 }

/-- The left button at an x, on the level of the middle anchor. -/
noncomputable def middleEvent (x : ℝ) (modifiers : Modifiers) : PointerEvent ℝ :=
  ⟨⟨x, 1 / 2⟩, some .left, modifiers, 0⟩

/-- A session whose middle anchor was pressed. -/
noncomputable def middlePressed (selection : Selection ℝ) : Session ℝ where
  path := leaningMiddle
  ids := ⟨3⟩
  selection
  settings := Settings.default
  grid := .coarse
  cursor := .grabbing
  press := some (middleEvent (1 / 2) Modifiers.none)
  isDown := true
  pool := SolverPool.empty
  compiled := none
  compiledFrom := none
  hasError := false

theorem leaningMiddle_inside : ∀ segment ∈ leaningMiddle.segments,
    0 ≤ segment.point.x ∧ segment.point.x ≤ 1 := by
  intro segment member
  simp only [leaningMiddle, List.mem_cons, List.not_mem_nil, or_false] at member
  rcases member with rfl | rfl | rfl <;> norm_num

/-- The middle anchor and its handle are dragged, and with alt the handle opposite is turned. -/
theorem handles_cut_middle :
    let selection := (Selection.only (Item.anchor ⟨1⟩) 0).insert (Item.handle ⟨1⟩ .outgoing) 0
    let session := (middlePressed selection).freezeSelection
    let event := middleEvent (7 / 8) { Modifiers.none with alt := true }
    (0 : ℝ) < 1 ∧ session.path.domain = 1 ∧
      (∀ segment ∈ session.path.segments, 0 ≤ segment.point.x ∧ segment.point.x ≤ 1) ∧
      session.Drags (Item.handle ⟨1⟩ .outgoing) ∧
      ∃ moved, session.transform event = .ok moved ∧
        ∀ side segment, moved.path.find? ⟨1⟩ = some segment → HandleInside 1 segment side := by
  intro selection session event
  have drags : session.Drags (Item.handle ⟨1⟩ .outgoing) := ⟨nofun, nofun⟩
  obtain ⟨moved, run, -, cut⟩ :=
    (handles_cut one_pos).2.2 session event rfl leaningMiddle_inside
  refine ⟨one_pos, rfl, leaningMiddle_inside, drags, moved, run, fun side => ?_⟩
  cases side with
  | incoming => exact (cut ⟨1⟩ .incoming).1 (.inr ⟨rfl, drags⟩)
  | outgoing => exact (cut ⟨1⟩ .outgoing).1 (.inl drags)

/-- **A handle that is selected after the press is not dragged**, and its anchor carries it out of
the domain. -/
theorem not_handles_cut : ¬∀ (session moved : Session ℝ) (event : PointerEvent ℝ),
    0 < session.path.domain →
      (∀ segment ∈ session.path.segments,
        0 ≤ segment.point.x ∧ segment.point.x ≤ session.path.domain) →
      session.transform event = .ok moved →
      ∀ id side, session.selection.contains (Item.handle id side) = true →
        ∀ segment, moved.path.find? id = some segment →
          HandleInside session.path.domain segment side := by
  intro within
  let pressed := (middlePressed (Selection.only (Item.anchor ⟨1⟩) 0)).freezeSelection
  let session := middlePressed (pressed.selection.insert (Item.handle ⟨1⟩ .outgoing) 0)
  let press := middleEvent (1 / 2) Modifiers.none
  let event := middleEvent (7 / 8) Modifiers.none
  have inside : Inside session.path := ⟨zero_le_one, leaningMiddle_inside⟩
  obtain ⟨grid, moved⟩ := transform_real inside event rfl
  have dragged : moves session.selection = [(Item.anchor ⟨1⟩, ⟨1 / 2, 1 / 2⟩)] := rfl
  have target : session.dragTarget press event ⟨1 / 2, 1 / 2⟩ = ⟨7 / 8, 1 / 2⟩ := by
    show (⟨1 / 2 + (7 / 8 - 1 / 2), 1 / 2 + (1 / 2 - 1 / 2)⟩ : Point ℝ) = _
    norm_num
  have place : anchorX leaningMiddle session.selection ⟨1⟩ (7 / 8) = 7 / 8 := by
    have room : anchorX leaningMiddle session.selection ⟨1⟩ (7 / 8) =
        Scalar.lesser (Scalar.greater (7 / 8) 0) 1 := rfl
    rw [room, confine_real_self (by norm_num) (by norm_num)]
  have found : (dragPath session press event session.path).find? ⟨1⟩ =
      some ⟨⟨⟨7 / 8, 1 / 2⟩, ⟨0, 0⟩, ⟨3 / 8, 0⟩⟩, ⟨1⟩⟩ := by
    unfold dragPath
    rw [dragged]
    show (carry session.selection false leaningMiddle (Item.anchor ⟨1⟩) _).find? _ = _
    rw [target]
    unfold carry
    rw [find?_modify _ _ _ fun segment => movePart_id segment]
    show some (movePart 1 (anchorX leaningMiddle session.selection ⟨1⟩ (7 / 8)) false .anchor
      ⟨7 / 8, 1 / 2⟩ ⟨⟨⟨1 / 2, 1 / 2⟩, ⟨0, 0⟩, ⟨3 / 8, 0⟩⟩, ⟨1⟩⟩) = _
    rw [place]
    rfl
  have ends := within session _ event one_pos leaningMiddle_inside moved ⟨1⟩ .outgoing rfl _ found
  have high : (7 / 8 + 3 / 8 : ℝ) ≤ 1 := ends.2
  norm_num at high

end Session

end Easing
