/-
**Dragging is safe.**

A press remembers where the selected items are, and the remembered anchors are in path order
(`Frozen`). Every drag starts from these points, so it may be the first or the last of its gesture:
the anchors stay in order, the ends stay where they are, and what is not selected does not change.

* `Session.frozen_freeze`: what a press remembers.
* `Session.transform_ascending`: one drag, for targets in order.
* `Session.dragTarget_mono`: the targets of doubles are in order, snapped or not.
* `Session.foldlM_drag_keeps`: all drags of a gesture.
-/
import Easing.Decimal.Layout
import Easing.Proofs.Scalar.Binary64
import Easing.Proofs.Session.Run
import Easing.Proofs.Session.Transform

set_option linter.unusedSectionVars false

namespace Easing

namespace Session

open Scalar OrderedScalar Easing.Path

variable {α : Type} [Scalar α]

/-! ### What a press remembers -/

/-- The selected anchors of a path have points to be dragged from, in path order. -/
structure Frozen (selection : Selection α) (path : Path α) : Prop where
  complete : ∀ id ∈ path.ids, anchorSelected selection id = true →
    ∃ point, (Item.anchor id, point) ∈ moves selection
  ordered : path.ids.Pairwise fun id id' => ∀ first second : Point α,
    (Item.anchor id, first) ∈ moves selection → (Item.anchor id', second) ∈ moves selection →
      first.x ≤ second.x

theorem contains_freeze (selection : Selection α) (pointOf : Item → Option (Point α))
    (item : Item) : (selection.freeze pointOf).contains item = selection.contains item := by
  unfold Selection.contains Selection.freeze
  rw [List.any_map]
  rfl

theorem mem_moves_freeze {selection : Selection α} {pointOf : Item → Option (Point α)}
    {move : Item × Point α} :
    move ∈ moves (selection.freeze pointOf) ↔
      selection.contains move.1 = true ∧ pointOf move.1 = some move.2 := by
  rw [mem_moves, Selection.contains_iff]
  constructor
  · rintro ⟨entry, member, item, frozen⟩
    obtain ⟨before, inside, rfl⟩ := List.mem_map.mp member
    exact ⟨⟨before, inside, item⟩, by rw [← item]; exact frozen⟩
  · rintro ⟨⟨entry, inside, item⟩, found⟩
    refine ⟨_, List.mem_map_of_mem inside, item, ?_⟩
    rw [← found, ← item]

/-- A press with the left button remembers where the items that it selects are. -/
theorem pressDown_eq (session : Session α) {press : PointerEvent α}
    (left : press.button = some .left) :
    ∃ selection : Selection α, ∃ cursor, session.pressDown press =
      { session with
        isDown := true
        press := some press
        selection := selection.freeze session.pointOf?
        cursor } := by
  unfold pressDown
  rw [if_pos left]
  exact ⟨_, _, rfl⟩

theorem pointOf?_anchor {session : Session α} {segment : Segment α}
    (distinct : session.path.Distinct) (member : segment ∈ session.path.segments) :
    session.pointOf? (Item.anchor segment.id) = some segment.point := by
  unfold pointOf?
  rw [show (Item.anchor segment.id).segment = segment.id from rfl, distinct.find? member]
  rfl

/-- What a press remembers is in path order. -/
theorem frozen_freeze (session : Session α) (distinct : session.path.Distinct)
    (ascending : session.path.Ascending) :
    Frozen (session.selection.freeze session.pointOf?) session.path where
  complete := by
    intro id member selected
    obtain ⟨segment, inside, rfl⟩ := List.mem_map.mp member
    rw [anchorSelected, contains_freeze] at selected
    exact ⟨segment.point, mem_moves_freeze.mpr ⟨selected, pointOf?_anchor distinct inside⟩⟩
  ordered := by
    refine List.pairwise_map.mpr (ascending.imp_of_mem ?_)
    intro segment next inside inside' step first second moved moved'
    have here : session.pointOf? (Item.anchor segment.id) = some first := (mem_moves_freeze.mp moved).2
    have there : session.pointOf? (Item.anchor next.id) = some second := (mem_moves_freeze.mp moved').2
    rw [pointOf?_anchor distinct inside, Option.some.injEq] at here
    rw [pointOf?_anchor distinct inside', Option.some.injEq] at there
    rwa [← here, ← there]

/-! ### One drag -/

section Dragging

variable [OrderedScalar α]

/-- Only the path and the grid have changed. -/
def OnlyPath (session changed : Session α) : Prop :=
  changed = { session with path := changed.path, grid := changed.grid }

/-- A drag moves the items that have a point to be dragged from. -/
theorem transform_progress (session : Session α) {press : PointerEvent α} (event : PointerEvent α)
    (pressed : session.press = some press) (distinct : session.path.Distinct)
    (ascending : session.path.Ascending) (pinned : session.path.Pinned)
    (width : 0 ≤ session.path.domain) :
    ∃ dragged, session.transform event = .ok dragged ∧ OnlyPath session dragged ∧
      Progress session.selection (session.dragTarget press event) session.path
        (moves session.selection) dragged.path := by
  have start : Progress session.selection (session.dragTarget press event) session.path []
      session.path := Progress.start ascending pinned
  obtain ⟨last, run, progress⟩ := foldlM_moveItem event.modifiers.editsExclusively start distinct
    pinned width fun move (member : move ∈ moves session.selection) => contains_of_mem_moves member
  rw [session.transform_eq event pressed]
  cases none : session.selection.isEmpty with
  | true =>
    have nothing : moves session.selection = [] := by
      rw [Selection.isEmpty, List.isEmpty_iff] at none
      rw [moves, none]
      rfl
    refine ⟨session, rfl, rfl, ?_⟩
    rw [nothing]
    exact Progress.start ascending pinned
  | false =>
    rw [run]
    exact ⟨_, rfl, rfl, progress⟩

theorem isFixed_id {path : Path α} {moving : SegmentId → Bool} {index : Nat} {segment : Segment α}
    (found : path.segments[index]? = some segment) (moves : path.isFixed moving index = false) :
    moving segment.id = true := ((isFixed_eq_false_iff found).mp moves).2.2

/-- **One drag keeps the order** when the targets of remembered points are in order. -/
theorem transform_ascending {session dragged : Session α} {press event : PointerEvent α}
    (ascending : session.path.Ascending) (pinned : session.path.Pinned)
    (frozen : Frozen session.selection session.path)
    (mono : ∀ first second : Point α, first.x ≤ second.x →
      Below (session.dragTarget press event first).x (session.dragTarget press event second).x)
    (progress : Progress session.selection (session.dragTarget press event) session.path
      (moves session.selection) dragged.path) :
    dragged.path.Ascending := by
  refine progress.ascending ascending pinned ?_ ?_
  · intro index segment found moves
    obtain ⟨point, member⟩ := frozen.complete segment.id (id_mem (List.mem_of_getElem? found))
      (isFixed_id found moves)
    exact ⟨_, member, rfl⟩
  · intro index segment next first second found foundNext moved moved'
    obtain ⟨bound, isId⟩ := List.getElem?_eq_some_iff.mp (id_of_getElem? found)
    obtain ⟨bound', isId'⟩ := List.getElem?_eq_some_iff.mp (id_of_getElem? foundNext)
    have less := List.pairwise_iff_getElem.mp frozen.ordered index (index + 1) bound bound'
      (Nat.lt_succ_self index)
    rw [isId, isId'] at less
    exact mono first second (less first second moved moved')

/-! ### All drags of a gesture -/

/-- What the drags of a gesture keep, compared with the press that began it. -/
structure DragKeeps (pressed dragged : Session α) : Prop where
  /-- The anchors are in order, the ends at zero and at the end of the domain. -/
  ascending : dragged.path.Ascending
  pinned : dragged.path.Pinned
  domain : dragged.path.domain = pressed.path.domain
  /-- The segments are the same ones in the same places. -/
  ids : dragged.path.ids = pressed.path.ids
  /-- A segment of which nothing is selected does not change. -/
  untouched : ∀ (index : Nat) (segment : Segment α), pressed.path.segments[index]? = some segment →
    (∀ part, pressed.selection.contains ⟨segment.id, part⟩ = false) →
    dragged.path.segments[index]? = some segment
  /-- A selected anchor between the ends stays between the nearest anchors that are not. -/
  room : ∀ (segment : Segment α) (low high : α), segment ∈ dragged.path.segments →
    dragged.path.isEndpoint segment.id = false →
    pressed.selection.contains (Item.anchor segment.id) = true →
    dragged.path.bounds? segment.id (fun id => pressed.selection.contains (Item.anchor id)) =
      some (low, high) →
    low ≤ segment.point.x ∧ segment.point.x ≤ high
  selection : dragged.selection = pressed.selection
  compiled : dragged.compiled = pressed.compiled
  hasError : dragged.hasError = pressed.hasError

/-- In a path in order every anchor lies between its bounds. -/
theorem between_bounds {path : Path α} {moving : SegmentId → Bool} {segment : Segment α}
    {low high : α} (distinct : path.Distinct) (ascending : path.Ascending) (pinned : path.Pinned)
    (member : segment ∈ path.segments) (room : path.bounds? segment.id moving = some (low, high)) :
    low ≤ segment.point.x ∧ segment.point.x ≤ high := by
  obtain ⟨index, found⟩ := List.mem_iff_getElem?.mp member
  rw [bounds?_eq (distinct.index? found), Option.some.injEq, Prod.mk.injEq] at room
  rw [← room.1, ← room.2]
  exact ⟨lowAt_le ascending pinned found, le_highAt ascending pinned found⟩

/-- The state of a gesture between two drags. -/
structure Gesture (press : PointerEvent α) (pressed dragged : Session α) : Prop
    extends DragKeeps pressed dragged where
  press : dragged.press = some press
  isDown : dragged.isDown = true
  settings : dragged.settings = pressed.settings

theorem Gesture.step {press event : PointerEvent α} {pressed dragged : Session α}
    (gesture : Gesture press pressed dragged) (distinct : pressed.path.Distinct)
    (width : 0 ≤ pressed.path.domain) (frozen : Frozen pressed.selection pressed.path)
    (mono : ∀ first second : Point α, first.x ≤ second.x →
      Below (pressed.dragTarget press event first).x (pressed.dragTarget press event second).x) :
    ∃ next, dragged.drag event = .ok next ∧ Gesture press pressed next := by
  have distinct' : dragged.path.Distinct := by
    unfold Distinct
    rwa [gesture.ids]
  have frozen' : Frozen dragged.selection dragged.path := by
    rw [gesture.selection]
    exact ⟨by rw [gesture.ids]; exact frozen.complete, by rw [gesture.ids]; exact frozen.ordered⟩
  have target : dragged.dragTarget press event = pressed.dragTarget press event := by
    unfold dragTarget
    rw [gesture.domain, gesture.settings]
  obtain ⟨changed, run, only, progress⟩ := dragged.transform_progress event gesture.press distinct'
    gesture.ascending gesture.pinned (by rwa [gesture.domain])
  have ascending : changed.path.Ascending :=
    transform_ascending gesture.ascending gesture.pinned frozen' (by rwa [target]) progress
  have pinned : changed.path.Pinned := progress.still.pinned gesture.pinned
  have distinct'' : changed.path.Distinct := progress.still.distinct distinct'
  refine ⟨changed.hover event.position event.modifiers, ?_, ?_⟩
  · unfold drag
    rw [gesture.isDown, if_pos rfl, run]
    rfl
  · rw [only]
    refine
      { ascending := ascending
        pinned := pinned
        domain := progress.still.domain.trans gesture.domain
        ids := progress.still.ids.trans gesture.ids
        untouched := ?_
        room := ?_
        selection := gesture.selection
        compiled := gesture.compiled
        hasError := gesture.hasError
        press := gesture.press
        isDown := gesture.isDown
        settings := gesture.settings }
    · intro index segment found none
      have found' := gesture.untouched index segment found none
      obtain ⟨after, found'', -⟩ := getElem?_of_ids progress.still.ids found'
      rw [← progress.untouched index segment after found' found'' ?_]
      · exact found''
      · intro move member same
        have selected := contains_of_mem_moves member
        rw [gesture.selection] at selected
        have := none move.1.part
        rw [← same] at this
        exact absurd selected (by rw [this]; exact Bool.false_ne_true)
    · intro segment low high member _ _ room
      exact between_bounds distinct'' ascending pinned member room

/-- A gesture goes on, drag after drag. -/
theorem Gesture.run {press : PointerEvent α} {pressed dragged : Session α}
    (gesture : Gesture press pressed dragged) (distinct : pressed.path.Distinct)
    (width : 0 ≤ pressed.path.domain) (frozen : Frozen pressed.selection pressed.path)
    (mono : ∀ (event : PointerEvent α) (first second : Point α), first.x ≤ second.x →
      Below (pressed.dragTarget press event first).x (pressed.dragTarget press event second).x)
    (events : List (PointerEvent α)) :
    ∃ last, events.foldlM drag dragged = .ok last ∧ Gesture press pressed last := by
  induction events generalizing dragged with
  | nil => exact ⟨dragged, rfl, gesture⟩
  | cons event events ih =>
    obtain ⟨next, moved, gesture'⟩ := gesture.step distinct width frozen (mono event)
    obtain ⟨last, run, gesture''⟩ := ih gesture'
    refine ⟨last, ?_, gesture''⟩
    rw [List.foldlM_cons, moved]
    exact run

/-- A press with the left button begins a gesture. -/
theorem gesture_pressDown {session : Session α} {press : PointerEvent α}
    (left : press.button = some .left) (distinct : session.path.Distinct)
    (ascending : session.path.Ascending) (pinned : session.path.Pinned) :
    Gesture press (session.pressDown press) (session.pressDown press) ∧
      Frozen (session.pressDown press).selection (session.pressDown press).path := by
  obtain ⟨selection, cursor, form⟩ := session.pressDown_eq left
  rw [form]
  refine ⟨?_, frozen_freeze { session with selection } distinct ascending⟩
  exact
    { ascending := ascending
      pinned := pinned
      domain := rfl
      ids := rfl
      untouched := fun _ _ found _ => found
      room := fun segment low high member _ _ room =>
        between_bounds distinct ascending pinned member room
      selection := rfl
      compiled := rfl
      hasError := rfl
      press := rfl
      isDown := rfl
      settings := rfl }

end Dragging

/-! ### Drags of doubles -/

/-- The targets of remembered points are in order, with and without snapping. -/
theorem dragTarget_mono (session : Session Float) (press event : PointerEvent Float)
    (width : 0 < session.path.domain) {first second : Point Float} (le : first.x ≤ second.x) :
    Below (session.dragTarget press event first).x (session.dragTarget press event second).x := by
  have moved : Binary64.level (first + (event.position - press.position)).x ≤
      Binary64.level (second + (event.position - press.position)).x :=
    Binary64.level_add_mono (Binary64.le_iff.mp le).2.2
  have wide : 0 < Binary64.level session.path.domain := by
    have := (Binary64.lt_iff.mp width).2.2
    rwa [show Binary64.level (0 : Float) = 0 from Binary64.level_zero] at this
  unfold dragTarget snapToGrid
  dsimp only
  split
  · split
    · exact Binary64.below_of_level moved
    case isFalse grid =>
      have some : session.settings.snapCells ≠ 0 := fun none => grid (Or.inl none)
      exact Binary64.below_of_level
        (Binary64.level_snap_mono wide (Binary64.level_ofNat_pos some) moved)
  · exact Binary64.below_of_level moved

/-- **Dragging is safe.** After a press with the left button and any drags the anchors are in order
between the same two ends, and nothing has changed but what is selected. -/
theorem foldlM_drag_keeps (session : Session Float) (press : PointerEvent Float)
    (events : List (PointerEvent Float)) (distinct : session.path.Distinct)
    (ascending : session.path.Ascending) (pinned : session.path.Pinned)
    (width : 0 < session.path.domain) (left : press.button = some .left) :
    (session.pressDown press).path = session.path ∧
      (session.pressDown press).compiled = session.compiled ∧
      (session.pressDown press).hasError = session.hasError ∧
      ∃ dragged, events.foldlM drag (session.pressDown press) = .ok dragged ∧
        DragKeeps (session.pressDown press) dragged := by
  obtain ⟨gesture, frozen⟩ := gesture_pressDown left distinct ascending pinned
  obtain ⟨selection, cursor, form⟩ := session.pressDown_eq left
  have path : (session.pressDown press).path = session.path := by rw [form]
  obtain ⟨last, run, gesture'⟩ := gesture.run (by rwa [path]) (by rw [path]; exact le_of_lt width)
    frozen (fun event first second le =>
      dragTarget_mono (session.pressDown press) press event (by rwa [path]) le) events
  exact ⟨path, by rw [form], by rw [form], last, run, gesture'.toDragKeeps⟩

/-- A path with two anchors at one x. -/
def twinAnchors : Path Float :=
  { segments :=
      [⟨Knot.corner ⟨0, 0⟩, ⟨0⟩⟩, ⟨Knot.corner ⟨0.5, 0.2⟩, ⟨1⟩⟩, ⟨Knot.corner ⟨0.5, 0.8⟩, ⟨2⟩⟩,
        ⟨Knot.corner ⟨1, 1⟩, ⟨3⟩⟩]
    domain := 1 }

/-- The first of two twins is pulled over the end, and then to the grid. -/
theorem foldlM_drag_twins :
    let session := ofPath twinAnchors ⟨4⟩ Settings.default
    let press : PointerEvent Float := ⟨⟨0.5, 0.2⟩, some .left, Modifiers.none, 0⟩
    let events : List (PointerEvent Float) :=
      [⟨⟨1.5, 0.3⟩, some .left, Modifiers.none, 100⟩,
        ⟨⟨0.3, 0.3⟩, some .left, { Modifiers.none with ctrl := true }, 200⟩]
    session.path.Distinct ∧ session.path.Ascending ∧ session.path.Pinned ∧
      0 < session.path.domain ∧ press.button = some .left ∧
      (session.pressDown press).path = session.path ∧
      (session.pressDown press).compiled = session.compiled ∧
      (session.pressDown press).hasError = session.hasError ∧
      ∃ dragged, events.foldlM drag (session.pressDown press) = .ok dragged ∧
        DragKeeps (session.pressDown press) dragged := by
  intro session press events
  have path : session.path = twinAnchors := ofPath_path _ _ _
  have distinct : session.path.Distinct := by
    rw [path]
    decide
  have ascending : session.path.Ascending := by
    rw [path]
    decide +kernel
  have pinned : session.path.Pinned := by
    rw [path]
    decide +kernel
  have width : 0 < session.path.domain := by
    rw [path]
    decide +kernel
  exact ⟨distinct, ascending, pinned, width, rfl,
    foldlM_drag_keeps session press events distinct ascending pinned width rfl⟩

end Session

end Easing
