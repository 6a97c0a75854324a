/-
**A drag depends on the latest event alone, but for the handles that follow.**

Every item of the selection is moved from the point that the press remembered, so it ends up where
the latest event puts it. With alt a dragged handle turns the other handle of its anchor. That one
is remembered nowhere when it is not selected: it stays as the last event with alt has left it.

* `Session.dragPath`, `Session.dragPaths`: what drags do to the path.
* `Session.dragPath_dragPaths`: when a drag leaves nothing of those before it.
* `Session.Follows`: the handles that only follow.
* `Session.foldlM_drag_eq_last_iff`: when a gesture depends on its latest event alone.
* `Session.foldlM_drag_eq_two`: in general it depends on two, the latest and the latest with alt.
-/
import Mathlib
import Easing.Proofs.Session.Carrying
import Easing.Proofs.Session.Dragging

set_option linter.unusedSectionVars false

namespace Easing

open Easing.Path

theorem Item.eq_of_parts {item other : Item} (segment : item.segment = other.segment)
    (part : item.part = other.part) : item = other := by
  obtain ⟨_, _⟩ := item
  obtain ⟨_, _⟩ := other
  simp only at segment part
  rw [segment, part]

namespace Session

/-! ### All drags of a gesture -/

section Dragging

variable {press event : PointerEvent ℝ} {pressed dragged : Session ℝ} {path other : Path ℝ}

/-- What a drag does to the path. -/
noncomputable def dragPath (pressed : Session ℝ) (press event : PointerEvent ℝ) (path : Path ℝ) :
    Path ℝ :=
  carryAll pressed.selection event.modifiers.editsExclusively (pressed.dragTarget press event)
    (moves pressed.selection) path

/-- What drags do to the path, one after another. -/
noncomputable def dragPaths (pressed : Session ℝ) (press : PointerEvent ℝ)
    (events : List (PointerEvent ℝ)) (path : Path ℝ) : Path ℝ :=
  events.foldl (fun path event => dragPath pressed press event path) path

/-- The ends hold when the selection is dragged. -/
theorem Held.dragPath (held : Held path) (pressed : Session ℝ) (press event : PointerEvent ℝ) :
    Held (dragPath pressed press event path) :=
  held.carryAll _ _ _ _

theorem Held.dragPaths (held : Held path) (pressed : Session ℝ) (press : PointerEvent ℝ)
    (events : List (PointerEvent ℝ)) : Held (dragPaths pressed press events path) := by
  induction events generalizing path with
  | nil => exact held
  | cons event events ih => exact ih (held.dragPath pressed press event)

/-- Moving the selection of a path inside its domain does to the path what a drag does. -/
theorem transform_real (inside : Inside dragged.path) (event : PointerEvent ℝ)
    (isPress : dragged.press = some press) :
    ∃ grid, dragged.transform event =
      .ok { dragged with path := dragPath dragged press event dragged.path, grid } := by
  rw [dragged.transform_eq event isPress]
  cases empty : dragged.selection.isEmpty with
  | true =>
    have nothing : moves dragged.selection = [] := by
      unfold moves
      rw [List.isEmpty_iff.mp empty]
      rfl
    refine ⟨dragged.grid, ?_⟩
    unfold dragPath
    rw [nothing]
    rfl
  | false =>
    rw [if_neg Bool.false_ne_true, (foldlM_moveItem_real _ _ _ _ inside).1]
    exact ⟨_, rfl⟩

/-- A gesture so far: nothing has changed that a drag looks at but the path, and its ends hold. -/
structure Steady (press : PointerEvent ℝ) (pressed dragged : Session ℝ) : Prop where
  held : Held dragged.path
  domain : dragged.path.domain = pressed.path.domain
  selection : dragged.selection = pressed.selection
  settings : dragged.settings = pressed.settings
  press : dragged.press = some press
  isDown : dragged.isDown = true

/-- A drag of a gesture does to the path what its event says. -/
theorem Steady.drag (steady : Steady press pressed dragged) (event : PointerEvent ℝ) :
    ∃ next, dragged.drag event = .ok next ∧ Steady press pressed next ∧
      next.path = dragPath pressed press event dragged.path := by
  have target : dragged.dragTarget press event = pressed.dragTarget press event := by
    unfold dragTarget
    rw [steady.domain, steady.settings]
  have same : dragPath dragged press event = dragPath pressed press event := by
    unfold dragPath
    rw [target, steady.selection]
  obtain ⟨grid, moved⟩ := transform_real steady.held.isInside event steady.press
  unfold Session.drag
  rw [if_pos steady.isDown, moved, same]
  exact ⟨_, rfl, ⟨steady.held.dragPath _ _ _, carryAll_frame.domain.trans steady.domain,
    steady.selection, steady.settings, steady.press, steady.isDown⟩, rfl⟩

/-- A gesture goes on, drag after drag. -/
theorem Steady.run (steady : Steady press pressed dragged) (events : List (PointerEvent ℝ)) :
    ∃ last, events.foldlM Session.drag dragged = .ok last ∧ Steady press pressed last ∧
      last.path = dragPaths pressed press events dragged.path := by
  induction events generalizing dragged with
  | nil => exact ⟨dragged, rfl, steady, rfl⟩
  | cons event events ih =>
    obtain ⟨next, moved, steady', path⟩ := steady.drag event
    obtain ⟨last, run, steady'', path'⟩ := ih steady'
    refine ⟨last, ?_, steady'', ?_⟩
    · rw [List.foldlM_cons, moved]
      exact run
    · rw [path', path]
      rfl

/-- A press with the left button begins a gesture. -/
theorem steady_pressDown {session : Session ℝ} (ascending : session.path.Ascending)
    (pinned : session.path.Pinned) (left : press.button = some .left) :
    Steady press (session.pressDown press) (session.pressDown press) := by
  unfold pressDown
  rw [if_pos left]
  exact ⟨held_of_ascending ascending pinned, rfl, rfl, rfl, rfl, rfl⟩

theorem pressDown_path {session : Session ℝ} (left : press.button = some .left) :
    (session.pressDown press).path = session.path := by
  unfold pressDown
  rw [if_pos left]
  rfl

/-- More is written when handles move in pairs. -/
theorem WritesAny.mono {paired paired' : Bool} {moves : List (Item × Point ℝ)} {item : Item}
    (written : WritesAny paired moves item) (more : paired = true → paired' = true) :
    WritesAny paired' moves item := by
  obtain ⟨move, member, same, part⟩ := written
  exact ⟨move, member, same, part.imp_right fun ⟨both, rest⟩ => ⟨more both, rest⟩⟩

/-- Only anchors that are moved are written. -/
theorem WritesAny.anchor {paired : Bool} {moves : List (Item × Point ℝ)} {id : SegmentId}
    (written : WritesAny paired moves (Item.anchor id)) :
    ∃ move ∈ moves, move.1 = Item.anchor id := by
  obtain ⟨move, member, same, part | ⟨-, side, -, handle⟩⟩ := written
  · exact ⟨move, member, Item.eq_anchor same part.symm⟩
  · cases handle

/-- All drags together write no more than one drag does. -/
theorem dragPaths_frame {paired : Bool} (events : List (PointerEvent ℝ))
    (pairs : ∀ event ∈ events, event.modifiers.alt = true → paired = true) :
    AgreeBut (WritesAny paired (moves pressed.selection)) path
      (dragPaths pressed press events path) := by
  induction events generalizing path with
  | nil => exact AgreeBut.refl _ path
  | cons event events ih =>
    refine AgreeBut.trans (carryAll_frame.mono fun item written => ?_)
      (ih fun event member => pairs event (List.mem_cons_of_mem _ member))
    exact written.mono (pairs event List.mem_cons_self)

theorem ranked_moves (selection : Selection ℝ) :
    (moves selection).Pairwise fun first second => first.1.rank < second.1.rank := by
  unfold moves
  rw [List.pairwise_filterMap]
  refine selection.ranked.imp fun {first second} less move isMove move' isMove' => ?_
  obtain ⟨point, -, rfl⟩ := Option.map_eq_some_iff.mp isMove
  obtain ⟨point', -, rfl⟩ := Option.map_eq_some_iff.mp isMove'
  exact less

/-- **Two drags of paths that differ in what drags write** differ in what the drags do not write. -/
theorem dragPath_agree {paired : Bool}
    (agree : AgreeBut (WritesAny paired (moves pressed.selection)) path other) (held : Held path)
    (held' : Held other) :
    AgreeBut (fun item => WritesAny paired (moves pressed.selection) item ∧
        ¬WritesAny event.modifiers.alt (moves pressed.selection) item)
      (dragPath pressed press event path) (dragPath pressed press event other) := by
  refine carryAll_agree (ranked_moves _) agree held held' (fun id written => ?_)
    fun id written => written.anchor
  obtain ⟨move, member, same⟩ := written.anchor
  rw [← same]
  exact contains_of_mem_moves member

end Dragging

/-! ### The latest event -/

/-- A handle that is not selected while the other one of its anchor is. -/
def Follows (selection : Selection ℝ) (id : SegmentId) (side : Side) : Prop :=
  selection.contains (Item.handle id side) = false ∧
    selection.contains (Item.handle id side.opposite) = true

section Following

variable {press : PointerEvent ℝ} {pressed dragged : Session ℝ} {path : Path ℝ}
  {selection : Selection ℝ} {id : SegmentId} {side : Side}

/-- What follows is moved by no drag without alt. -/
theorem Follows.not_written (follows : Follows selection id side) :
    ¬WritesAny false (moves selection) ⟨id, .handle side⟩ := by
  rintro ⟨move, member, same, part | ⟨both, -⟩⟩
  · have selected := contains_of_mem_moves member
    rw [← Item.eq_of_parts same part] at selected
    exact absurd (follows.1.symm.trans selected) Bool.false_ne_true
  · cases both

/-- Where one part of a segment is moved, all its selected parts are. -/
def Complete (selection : Selection ℝ) : Prop :=
  ∀ move ∈ moves selection, ∀ part, selection.contains ⟨move.1.segment, part⟩ = true →
    ∃ point, (⟨move.1.segment, part⟩, point) ∈ moves selection

theorem complete_freeze (session : Session ℝ) (selection : Selection ℝ) :
    Complete (selection.freeze session.pointOf?) := by
  intro move member part selected
  obtain ⟨-, here⟩ := mem_moves_freeze.mp member
  obtain ⟨segment, found, -⟩ := Option.map_eq_some_iff.mp here
  rw [contains_freeze] at selected
  refine ⟨partPoint segment part, mem_moves_freeze.mpr ⟨selected, ?_⟩⟩
  exact Option.map_eq_some_iff.mpr ⟨segment, found, rfl⟩

/-- What is written with alt alone follows. -/
theorem follows_of_written {paired : Bool} {item : Item} (complete : Complete selection)
    (written : WritesAny paired (moves selection) item)
    (unwritten : ¬WritesAny false (moves selection) item) :
    ∃ side, item.part = .handle side ∧ Follows selection item.segment side := by
  obtain ⟨move, member, same, part | ⟨-, side, leads, opposite⟩⟩ := written
  · exact absurd ⟨move, member, same, .inl part⟩ unwritten
  · refine ⟨side.opposite, opposite, ?_, ?_⟩
    · rw [Bool.eq_false_iff]
      intro selected
      rw [same] at selected
      obtain ⟨point, moved⟩ := complete move member _ selected
      exact unwritten ⟨_, moved, same, .inl opposite⟩
    · rw [Side.opposite_opposite, same, Item.handle, ← leads]
      exact contains_of_mem_moves member

/-- **After a drag with alt nothing is left of the drags before it**, and drags without alt leave
nothing to any drag. -/
theorem dragPath_dragPaths (events : List (PointerEvent ℝ)) (last : PointerEvent ℝ)
    (held : Held path)
    (alone : last.modifiers.alt = true ∨ ∀ event ∈ events, event.modifiers.alt = false) :
    dragPath pressed press last (dragPaths pressed press events path) =
      dragPath pressed press last path := by
  have frame : AgreeBut (WritesAny last.modifiers.alt (moves pressed.selection)) path
      (dragPaths pressed press events path) := by
    refine dragPaths_frame events fun event member alt => ?_
    rcases alone with last | plain
    · exact last
    · rw [plain event member] at alt
      cases alt
  exact (dragPath_agree frame held (held.dragPaths pressed press events)).eq_of_handles
    fun item loose => absurd loose.1 loose.2

/-- A drag without alt leaves what only follows where it is. -/
theorem handle?_dragPath {event : PointerEvent ℝ} (plain : event.modifiers.alt = false)
    (follows : Follows pressed.selection id side) :
    (dragPath pressed press event path).handle? id side = path.handle? id side := by
  have frame : AgreeBut (WritesAny event.modifiers.alt (moves pressed.selection)) path
      (dragPath pressed press event path) := carryAll_frame
  rw [plain] at frame
  exact frame.handle?_eq follows.not_written

/-- Whatever drags there were before, a drag leaves the same but for what only follows. -/
theorem dragPath_dragPaths_agree (complete : Complete pressed.selection) (held : Held path)
    (earlier : List (PointerEvent ℝ)) (last : PointerEvent ℝ) :
    AgreeBut (fun item => ∃ side, item.part = .handle side ∧
        Follows pressed.selection item.segment side)
      (dragPath pressed press last path)
      (dragPath pressed press last (dragPaths pressed press earlier path)) := by
  have frame : AgreeBut (WritesAny true (moves pressed.selection)) path
      (dragPaths pressed press earlier path) := dragPaths_frame earlier fun _ _ _ => rfl
  refine (dragPath_agree frame held (held.dragPaths pressed press earlier)).mono fun item loose => ?_
  exact follows_of_written complete loose.1 fun written => loose.2 (written.mono nofun)

/-- When a drag leaves the same as without the drags before it. -/
theorem dragPath_dragPaths_eq_iff (complete : Complete pressed.selection) (held : Held path)
    (earlier : List (PointerEvent ℝ)) (last : PointerEvent ℝ) :
    dragPath pressed press last (dragPaths pressed press earlier path) =
        dragPath pressed press last path ↔
      last.modifiers.alt = true ∨ ∀ id side, Follows pressed.selection id side →
        (dragPath pressed press last (dragPaths pressed press earlier path)).handle? id side =
          path.handle? id side := by
  cases alt : last.modifiers.alt with
  | true => exact iff_of_true (dragPath_dragPaths earlier last held (.inl alt)) (.inl rfl)
  | false =>
    constructor
    · intro same
      refine .inr fun id side follows => ?_
      rw [same, handle?_dragPath alt follows]
    · intro kept
      refine (dragPath_dragPaths_agree complete held earlier last).eq_of_handles fun item loose => ?_
      obtain ⟨side, part, follows⟩ := loose
      refine ⟨side, part, ?_⟩
      rw [kept.resolve_left Bool.false_ne_true _ _ follows, handle?_dragPath alt follows]

end Following

/-- **When a gesture depends on its latest event alone**: when this event has alt, and otherwise
when the handles that only follow are where they were at the press. Nothing else can differ, and
nothing does when no event before had alt. -/
theorem foldlM_drag_eq_last_iff (session : Session ℝ) (press : PointerEvent ℝ)
    (earlier : List (PointerEvent ℝ)) (last : PointerEvent ℝ) (ascending : session.path.Ascending)
    (pinned : session.path.Pinned) (left : press.button = some .left) :
    ∃ whole single, (earlier ++ [last]).foldlM drag (session.pressDown press) = .ok whole ∧
      (session.pressDown press).drag last = .ok single ∧
      AgreeBut (fun item => ∃ side, item.part = .handle side ∧
        Follows (session.pressDown press).selection item.segment side) single.path whole.path ∧
      (whole.path = single.path ↔ last.modifiers.alt = true ∨
        ∀ id side, Follows (session.pressDown press).selection id side →
          whole.path.handle? id side = session.path.handle? id side) ∧
      ((∀ event ∈ earlier, event.modifiers.alt = false) → whole.path = single.path) := by
  have steady := steady_pressDown ascending pinned left
  have start : (session.pressDown press).path = session.path := pressDown_path left
  have complete : Complete (session.pressDown press).selection := by
    unfold pressDown
    rw [if_pos left]
    exact complete_freeze _ _
  generalize session.pressDown press = pressed at steady start complete ⊢
  obtain ⟨whole, run, -, isWhole⟩ := steady.run (earlier ++ [last])
  obtain ⟨single, once, -, isSingle⟩ := steady.drag last
  have path : whole.path =
      dragPath pressed press last (dragPaths pressed press earlier pressed.path) := by
    rw [isWhole]
    exact List.foldl_append
  refine ⟨whole, single, run, once, ?_⟩
  rw [path, isSingle, ← start]
  exact ⟨dragPath_dragPaths_agree complete steady.held earlier last,
    dragPath_dragPaths_eq_iff complete steady.held earlier last,
    fun plain => dragPath_dragPaths earlier last steady.held (.inr plain)⟩

/-- **Two events tell the path** after a gesture: the latest one, and the latest one with alt. -/
theorem foldlM_drag_eq_two (session : Session ℝ) {press turn last : PointerEvent ℝ}
    (front back : List (PointerEvent ℝ)) (ascending : session.path.Ascending)
    (pinned : session.path.Pinned) (left : press.button = some .left)
    (alt : turn.modifiers.alt = true) (plain : ∀ event ∈ back, event.modifiers.alt = false) :
    ∃ whole two,
      (front ++ turn :: (back ++ [last])).foldlM drag (session.pressDown press) = .ok whole ∧
      [turn, last].foldlM drag (session.pressDown press) = .ok two ∧ whole.path = two.path := by
  have steady := steady_pressDown ascending pinned left
  generalize session.pressDown press = pressed at steady ⊢
  obtain ⟨whole, run, -, path⟩ := steady.run (front ++ turn :: (back ++ [last]))
  obtain ⟨two, run', -, path'⟩ := steady.run [turn, last]
  refine ⟨whole, two, run, run', ?_⟩
  have turned : dragPath pressed press turn (dragPaths pressed press front pressed.path) =
      dragPath pressed press turn pressed.path :=
    dragPath_dragPaths front turn steady.held (.inl alt)
  have held : Held (dragPath pressed press turn pressed.path) := steady.held.dragPath _ _ _
  calc whole.path = dragPath pressed press last (dragPaths pressed press back
        (dragPath pressed press turn (dragPaths pressed press front pressed.path))) := by
        rw [path]
        unfold dragPaths
        rw [List.foldl_append, List.foldl_cons, List.foldl_append, List.foldl_cons, List.foldl_nil]
    _ = dragPath pressed press last (dragPath pressed press turn pressed.path) := by
        rw [turned, dragPath_dragPaths back last held (.inr plain)]
    _ = two.path := path'.symm

/-! ### A handle that was turned -/

/-- A path that leaves its first anchor upwards. -/
noncomputable def steepStart : Path ℝ :=
  ⟨[⟨⟨⟨0, 0⟩, ⟨0, 0⟩, ⟨0, 1 / 4⟩⟩, ⟨0⟩⟩, ⟨⟨⟨1, 1⟩, ⟨0, 0⟩, ⟨0, 0⟩⟩, ⟨1⟩⟩], 1⟩

noncomputable def steepSession : Session ℝ where
  path := steepStart
  ids := ⟨2⟩
  selection := Selection.empty
  settings :=
    { domain := 1
      hitTolerance := 1 / 50
      smoothingRatio := 1 / 10
      snapCells := 16
      coarseCells := 4
      clickDebounce := 300
      clickSlop := 3 / 500
      compile := CompileOptions.default }
  grid := .coarse
  cursor := .crosshair
  press := none
  isDown := false
  pool := SolverPool.empty
  compiled := none
  compiledFrom := none
  hasError := false

/-- The left button at the height of an event, on the axis. -/
noncomputable def steepEvent (height : ℝ) (modifiers : Modifiers) : PointerEvent ℝ :=
  ⟨⟨0, height⟩, some .left, modifiers, 0⟩

theorem steepStart_ascending : steepStart.Ascending := by
  unfold steepStart Path.Ascending
  simp

theorem steepStart_pinned : steepStart.Pinned := by
  refine ⟨le_rfl, fun segment found => ?_, fun segment found => ?_⟩
  · obtain rfl := Option.some.inj found
    rw [Scalar.zero_real]
    exact beq_self_eq_true _
  · obtain rfl := Option.some.inj found
    exact beq_self_eq_true _

/-- What is far from the pointer is not hit. -/
theorem nearerHit_of_far {position : Point ℝ} {radius : ℝ} {best : Option (Hit ℝ)}
    {target : Item × Point ℝ} (positive : 0 ≤ radius)
    (far : radius ^ 2 < (target.2.x - position.x) * (target.2.x - position.x) +
      (target.2.y - position.y) * (target.2.y - position.y)) :
    nearerHit position radius best target = best := by
  have beyond : radius < target.2.distance position := (Real.lt_sqrt positive).mpr far
  unfold nearerHit
  dsimp only
  rw [if_pos beyond]

/-- The handle is what a press on it hits. -/
theorem hitTest_steep : (steepSession.hitTest ⟨0, 1 / 4⟩).map (·.item) =
    some (Item.handle ⟨0⟩ .outgoing) := by
  have noHandle : (⟨0, 0⟩ : Vec ℝ).isZero = true := (Vec.isZero_real _).mpr ⟨rfl, rfl⟩
  have handle : (⟨0, 1 / 4⟩ : Vec ℝ).isZero = false := by
    rw [Bool.eq_false_iff, ne_eq, Vec.isZero_real]
    norm_num
  have near : steepSession.path.segments.flatMap targets =
      [(Item.anchor ⟨0⟩, ⟨0, 0⟩), (Item.handle ⟨0⟩ .outgoing, ⟨0 + 0, 0 + 1 / 4⟩),
        (Item.anchor ⟨1⟩, ⟨1, 1⟩)] := by
    simp only [steepSession, steepStart, List.flatMap_cons, List.flatMap_nil, targets, handleTarget,
      Knot.handle, noHandle, handle, if_true, Bool.false_eq_true, if_false]
    rfl
  have radius : steepSession.settings.hitRadius = 1 / 50 := mul_one _
  have length : (⟨0 + 0, 0 + 1 / 4⟩ : Point ℝ).distance ⟨0, 1 / 4⟩ = 0 := by
    show √((0 + 0 - 0) * (0 + 0 - 0) + (0 + 1 / 4 - 1 / 4) * (0 + 1 / 4 - 1 / 4)) = 0
    norm_num
  have hit : nearerHit ⟨0, 1 / 4⟩ (1 / 50) none
      (Item.handle ⟨0⟩ .outgoing, (⟨0 + 0, 0 + 1 / 4⟩ : Point ℝ)) =
        some ⟨Item.handle ⟨0⟩ .outgoing, ⟨0 + 0, 0 + 1 / 4⟩, 0⟩ := by
    unfold nearerHit
    dsimp only
    rw [length, if_neg (by norm_num), if_pos rfl]
  have first : nearerHit ⟨0, 1 / 4⟩ (1 / 50) none (Item.anchor ⟨0⟩, (⟨0, 0⟩ : Point ℝ)) = none :=
    nearerHit_of_far (by norm_num) (by norm_num)
  unfold hitTest
  rw [near, radius, List.foldl_cons, List.foldl_cons, List.foldl_cons, List.foldl_nil, first, hit,
    nearerHit_of_far (by norm_num) (by norm_num)]
  rfl

/-- The press on the handle. -/
noncomputable def steepPress : PointerEvent ℝ := steepEvent (1 / 4) Modifiers.none

/-- The press selects the handle and remembers where it is. -/
theorem selection_steep : (steepSession.pressDown steepPress).selection =
    (Selection.only (Item.handle ⟨0⟩ .outgoing) 0).freeze steepSession.pointOf? := by
  have left : steepPress.button = some .left := rfl
  unfold pressDown
  rw [if_pos left]
  show (selectOnPress Selection.empty ((steepSession.hitTest ⟨0, 1 / 4⟩).map (·.item)) _).freeze _ = _
  rw [hitTest_steep]
  rfl

theorem moves_steep : moves (steepSession.pressDown steepPress).selection =
    [(Item.handle ⟨0⟩ .outgoing, ⟨0 + 0, 0 + 1 / 4⟩)] := by
  rw [selection_steep]
  rfl

theorem follows_steep : Follows (steepSession.pressDown steepPress).selection ⟨0⟩ .incoming := by
  rw [selection_steep]
  exact ⟨rfl, rfl⟩

/-- A drag with alt turns the other handle. -/
theorem handle?_turned : (dragPath (steepSession.pressDown steepPress) steepPress
    (steepEvent (1 / 2) { Modifiers.none with alt := true }) steepStart).handle? ⟨0⟩ .incoming =
      some ⟨0, -(1 / 2)⟩ := by
  have up : reach 1 ⟨0, 0⟩ ⟨0 + 0 + (0 - 0), 0 + 1 / 4 + (1 / 2 - 1 / 4)⟩ = ⟨0, 1 / 2⟩ := by
    rw [reach_of_inside (by norm_num)]
    show (⟨_ - 0, _ - 0⟩ : Vec ℝ) = _
    norm_num
  have down : reach 1 ⟨0, 0⟩ ((⟨0, 0⟩ : Point ℝ) - (⟨0, 1 / 2⟩ : Vec ℝ)) = ⟨0, -(1 / 2)⟩ := by
    show reach 1 ⟨0, 0⟩ ⟨0 - 0, 0 - 1 / 2⟩ = _
    rw [reach_of_inside (by norm_num)]
    show (⟨_ - 0, _ - 0⟩ : Vec ℝ) = _
    norm_num
  have found : steepStart.find? ⟨0⟩ = some ⟨⟨⟨0, 0⟩, ⟨0, 0⟩, ⟨0, 1 / 4⟩⟩, ⟨0⟩⟩ := rfl
  unfold dragPath
  rw [moves_steep]
  show (Path.find? (carry _ _ steepStart _ _) _).map _ = _
  unfold carry
  rw [find?_modify _ _ _ fun segment => movePart_id segment]
  show ((steepStart.find? ⟨0⟩).map _).map _ = _
  rw [found, Option.map_some, Option.map_some, Option.some.injEq]
  show reach 1 ⟨0, 0⟩ ((⟨0, 0⟩ : Point ℝ) -
    reach 1 ⟨0, 0⟩ ⟨0 + 0 + (0 - 0), 0 + 1 / 4 + (1 / 2 - 1 / 4)⟩) = _
  rw [up, down]

/-- The handle follows the first drag, and the second one leaves it there. -/
theorem foldlM_drag_steep :
    let turn := steepEvent (1 / 2) { Modifiers.none with alt := true }
    let back := steepEvent (1 / 4) Modifiers.none
    steepSession.path.Ascending ∧ steepSession.path.Pinned ∧ steepPress.button = some .left ∧
      ∃ whole single,
        ([turn] ++ [back]).foldlM drag (steepSession.pressDown steepPress) = .ok whole ∧
        (steepSession.pressDown steepPress).drag back = .ok single ∧
        AgreeBut (fun item => ∃ side, item.part = .handle side ∧
          Follows (steepSession.pressDown steepPress).selection item.segment side)
            single.path whole.path ∧
        (whole.path = single.path ↔ back.modifiers.alt = true ∨
          ∀ id side, Follows (steepSession.pressDown steepPress).selection id side →
            whole.path.handle? id side = steepSession.path.handle? id side) ∧
        ((∀ event ∈ [turn], event.modifiers.alt = false) → whole.path = single.path) :=
  ⟨steepStart_ascending, steepStart_pinned, rfl, foldlM_drag_eq_last_iff steepSession steepPress _ _
    steepStart_ascending steepStart_pinned rfl⟩

/-- **A drag does not depend on the latest event alone**: the turned handle stays turned when alt is
let go. -/
theorem not_foldlM_drag_eq_last : ¬∀ (session : Session ℝ) (press : PointerEvent ℝ)
    (earlier : List (PointerEvent ℝ)) (last : PointerEvent ℝ) (whole single : Session ℝ),
    session.path.Ascending → session.path.Pinned → 0 < session.path.domain →
      press.button = some .left →
      (earlier ++ [last]).foldlM drag (session.pressDown press) = .ok whole →
      (session.pressDown press).drag last = .ok single → whole.path = single.path := by
  intro same
  have steady : Steady steepPress (steepSession.pressDown steepPress)
      (steepSession.pressDown steepPress) :=
    steady_pressDown steepStart_ascending steepStart_pinned rfl
  have start : (steepSession.pressDown steepPress).path = steepStart := pressDown_path rfl
  have turns := handle?_turned
  rw [← start] at turns
  have begins : (steepSession.pressDown steepPress).path.handle? ⟨0⟩ .incoming = some ⟨0, 0⟩ := by
    rw [start]
    rfl
  obtain ⟨turned, first, steady', path⟩ :=
    steady.drag (steepEvent (1 / 2) { Modifiers.none with alt := true })
  obtain ⟨whole, second, -, path'⟩ := steady'.drag steepPress
  obtain ⟨single, once, -, path''⟩ := steady.drag steepPress
  have wide : (0 : ℝ) < steepSession.path.domain := one_pos
  have run : ([steepEvent (1 / 2) { Modifiers.none with alt := true }] ++ [steepPress]).foldlM drag
      (steepSession.pressDown steepPress) = .ok whole := by
    rw [List.singleton_append, List.foldlM_cons, first]
    show [steepPress].foldlM drag turned = _
    rw [List.foldlM_cons, second]
    rfl
  have equal := same steepSession steepPress _ steepPress whole single steepStart_ascending
    steepStart_pinned wide rfl run once
  have kept : whole.path.handle? ⟨0⟩ .incoming = turned.path.handle? ⟨0⟩ .incoming := by
    rw [path']
    exact handle?_dragPath rfl follows_steep
  have fresh : single.path.handle? ⟨0⟩ .incoming =
      (steepSession.pressDown steepPress).path.handle? ⟨0⟩ .incoming := by
    rw [path'']
    exact handle?_dragPath rfl follows_steep
  rw [equal, fresh, begins, path, turns, Option.some.injEq, Vec.mk.injEq] at kept
  norm_num at kept

end Session

end Easing
