/-
**Sessions in another unit.**

Two sessions that differ in the unit of length alone stay so under every method, when the positions
of the events are given in the unit of their session. Distances in the settings are fractions of the
domain, so only the domain changes there; what is selected, and since when, does not.

* `Selection.scaled`, `Settings.scaled`, `PointerEvent.scaled`: their parts.
* `Session.Scaled`: the relation. It leaves out what belongs to compiling.
* `Session.Scaled.hitTest`, `Session.Scaled.isClick`: what lies under the pointer, what a click is.
* `Session.Scaled.transform`, `Session.Scaled.release`, ...: one lemma for each method.
-/
import Easing.Proofs.Path.Scaling
import Easing.Proofs.Session.Settled

set_option linter.unusedSectionVars false

namespace Easing

variable {factor : ℝ}

/-! ### Selections -/

namespace Selection

theorem eq_of_entries {α : Type} {s t : Selection α} (same : s.entries = t.entries) : s = t := by
  obtain ⟨entries, _⟩ := s
  obtain ⟨_, _⟩ := t
  obtain rfl : entries = _ := same
  rfl

end Selection

/-- A selected item with its point in another unit. -/
noncomputable def Selected.scaled (factor : ℝ) (entry : Selected ℝ) : Selected ℝ :=
  { entry with frozen := entry.frozen.map (·.scale factor) }

namespace Selection

/-- The same items, with their points in another unit. -/
noncomputable def scaled (factor : ℝ) (s : Selection ℝ) : Selection ℝ where
  entries := s.entries.map (Selected.scaled factor)
  ranked := by
    unfold RankedList
    rw [List.pairwise_map]
    exact s.ranked

theorem items_scaled (s : Selection ℝ) : (s.scaled factor).items = s.items := by
  unfold items scaled
  rw [List.map_map]
  rfl

theorem anchors_scaled (s : Selection ℝ) : (s.scaled factor).anchors = s.anchors := by
  unfold anchors
  rw [items_scaled]

theorem isEmpty_scaled (s : Selection ℝ) : (s.scaled factor).isEmpty = s.isEmpty := by
  unfold isEmpty scaled
  exact List.isEmpty_map

theorem contains_scaled (s : Selection ℝ) (item : Item) :
    (s.scaled factor).contains item = s.contains item := by
  unfold contains scaled
  rw [List.any_map]
  rfl

theorem isRecent_scaled (s : Selection ℝ) (item : Item) (now window : ℕ) :
    (s.scaled factor).isRecent item now window = s.isRecent item now window := by
  unfold isRecent addedAt? find? scaled
  rw [List.find?_map, Option.map_map]
  rfl

theorem retain_scaled (s : Selection ℝ) (keep : Item → Bool) :
    (s.scaled factor).retain keep = (s.retain keep).scaled factor := by
  refine eq_of_entries ?_
  unfold retain scaled
  dsimp only
  rw [List.filter_map]
  rfl

theorem insertByRank_scaled (entry : Selected ℝ) (entries : List (Selected ℝ)) :
    insertByRank (entry.scaled factor) (entries.map (Selected.scaled factor)) =
      (insertByRank entry entries).map (Selected.scaled factor) := by
  induction entries with
  | nil => rfl
  | cons head rest ih =>
    rw [List.map_cons, insertByRank, insertByRank, ih]
    simp only [apply_ite (List.map (Selected.scaled factor)), List.map_cons]
    rfl

theorem insert_scaled (s : Selection ℝ) (item : Item) (now : ℕ) :
    (s.scaled factor).insert item now = (s.insert item now).scaled factor := by
  have present : (s.scaled factor).contains item = s.contains item := s.contains_scaled item
  unfold insert
  split
  case isTrue selected =>
    rw [dif_pos (present.symm.trans selected)]
  case isFalse selected =>
    rw [dif_neg (present ▸ selected)]
    exact eq_of_entries (insertByRank_scaled ⟨item, now, none⟩ s.entries)

theorem remove_scaled (s : Selection ℝ) (item : Item) :
    (s.scaled factor).remove item = (s.remove item).scaled factor := retain_scaled s _

theorem toggle_scaled (s : Selection ℝ) (item : Item) (now : ℕ) :
    (s.scaled factor).toggle item now = (s.toggle item now).scaled factor := by
  unfold toggle
  rw [contains_scaled, remove_scaled, insert_scaled]
  split <;> rfl

theorem only_scaled (item : Item) (now : ℕ) :
    (only item now : Selection ℝ).scaled factor = only item now :=
  (insert_scaled empty item now).symm

theorem freeze_scaled (s : Selection ℝ) (pointOf : Item → Option (Point ℝ)) :
    (s.scaled factor).freeze (fun item => (pointOf item).map (·.scale factor)) =
      (s.freeze pointOf).scaled factor := by
  refine eq_of_entries ?_
  unfold freeze scaled
  dsimp only
  rw [List.map_map, List.map_map]
  rfl

end Selection

/-! ### Settings and events -/

/-- The settings for a domain in another unit. -/
noncomputable def Settings.scaled (factor : ℝ) (settings : Settings ℝ) : Settings ℝ :=
  { settings with domain := settings.domain * factor }

theorem Settings.hitRadius_scaled (settings : Settings ℝ) :
    (settings.scaled factor).hitRadius = settings.hitRadius * factor := (mul_assoc _ _ _).symm

theorem Settings.clickRadius_scaled (settings : Settings ℝ) :
    (settings.scaled factor).clickRadius = settings.clickRadius * factor := (mul_assoc _ _ _).symm

/-- An event with its position in another unit. -/
noncomputable def PointerEvent.scaled (factor : ℝ) (event : PointerEvent ℝ) : PointerEvent ℝ :=
  { event with position := event.position.scale factor }

/-! ### Parts of the methods -/

/-- Steps that go well with a change of unit give a run that does. -/
theorem foldlM_map_of_step {ε β γ ι : Type} {step : β → ι → Except ε β}
    {step' : γ → ι → Except ε γ} {change : β → γ}
    (agree : ∀ state item, step' (change state) item = (step state item).map change)
    (items : List ι) (state : β) :
    items.foldlM step' (change state) = (items.foldlM step state).map change := by
  induction items generalizing state with
  | nil => rfl
  | cons item rest ih =>
    rw [List.foldlM_cons, List.foldlM_cons, agree]
    cases step state item with
    | error fault => rfl
    | ok next => exact ih next

/-- A hit in another unit. -/
noncomputable def Hit.scaled (factor : ℝ) (hit : Hit ℝ) : Hit ℝ :=
  ⟨hit.item, hit.point.scale factor, hit.distance * factor⟩

namespace Session

/-- A point of an item in another unit. -/
noncomputable def scaledTarget (factor : ℝ) (target : Item × Point ℝ) : Item × Point ℝ :=
  (target.1, target.2.scale factor)

theorem toKnot_scaled (segment : Segment ℝ) :
    (segment.scaled factor).toKnot = segment.toKnot.scale factor := rfl

theorem handleTarget_scaled (positive : 0 < factor) (segment : Segment ℝ) (side : Side) :
    handleTarget (segment.scaled factor) side =
      (handleTarget segment side).map (scaledTarget factor) := by
  unfold handleTarget
  rw [toKnot_scaled, Knot.handle_scale, Vec.isZero_scale positive, Knot.handlePoint_scale]
  split <;> rfl

theorem targets_scaled (positive : 0 < factor) (segment : Segment ℝ) :
    targets (segment.scaled factor) = (targets segment).map (scaledTarget factor) := by
  unfold targets
  rw [handleTarget_scaled positive, handleTarget_scaled positive, List.map_cons, List.map_append]
  rfl

theorem nearerHit_scaled (positive : 0 < factor) (position : Point ℝ) (radius : ℝ)
    (best : Option (Hit ℝ)) (target : Item × Point ℝ) :
    nearerHit (position.scale factor) (radius * factor) (best.map (Hit.scaled factor))
        (scaledTarget factor target) =
      (nearerHit position radius best target).map (Hit.scaled factor) := by
  unfold nearerHit scaledTarget
  simp only [Point.distance_scale positive, mul_lt_mul_iff_left₀ positive]
  split
  · rfl
  · cases best with
    | none => rfl
    | some hit =>
      simp only [Option.map_some, Hit.scaled, mul_lt_mul_iff_left₀ positive]
      split <;> rfl

theorem foldl_nearerHit_scaled (positive : 0 < factor) (position : Point ℝ) (radius : ℝ)
    (targets : List (Item × Point ℝ)) (best : Option (Hit ℝ)) :
    (targets.map (scaledTarget factor)).foldl (nearerHit (position.scale factor) (radius * factor))
        (best.map (Hit.scaled factor)) =
      (targets.foldl (nearerHit position radius) best).map (Hit.scaled factor) := by
  induction targets generalizing best with
  | nil => rfl
  | cons target rest ih =>
    rw [List.map_cons, List.foldl_cons, List.foldl_cons, nearerHit_scaled positive, ih]

theorem partPoint_scaled (segment : Segment ℝ) (part : Part) :
    partPoint (segment.scaled factor) part = (partPoint segment part).scale factor := by
  cases part with
  | anchor => rfl
  | handle side => exact Knot.handlePoint_scale segment.toKnot side

/-! ### Dragging one item -/

theorem anchorX_scaled (positive : 0 < factor) (path : Path ℝ) (selection : Selection ℝ)
    (id : SegmentId) (x : ℝ) :
    anchorX (path.scaled factor) (selection.scaled factor) id (x * factor) =
      anchorX path selection id x * factor := by
  have bounds : ((path.bounds? id fun other => selection.contains (Item.anchor other)).map
        (Prod.map (· * factor) (· * factor))).getD (0 * factor, path.domain * factor) =
      Prod.map (· * factor) (· * factor)
        ((path.bounds? id fun other => selection.contains (Item.anchor other)).getD
          (0, path.domain)) := Option.getD_map _ (0, path.domain) _
  rw [zero_mul] at bounds
  unfold anchorX
  simp only [Path.isFirst_scaled, Path.isLast_scaled, Path.bounds?_scaled,
    Selection.contains_scaled, Scalar.zero_real]
  rw [show (path.scaled factor).domain = path.domain * factor from rfl, bounds]
  split
  · exact (zero_mul factor).symm
  · split
    · rfl
    · rw [Prod.map_fst, Prod.map_snd, greater_scale positive, lesser_scale positive]

theorem dragHandle_scaled (positive : 0 < factor) (segment : Segment ℝ) (side : Side)
    (target : Point ℝ) (domain : ℝ) (paired : Bool) :
    dragHandle (segment.scaled factor) side (target.scale factor) (domain * factor) paired =
      (dragHandle segment side target domain paired).map (Segment.scaled factor) := by
  unfold dragHandle
  rw [toKnot_scaled, clampHandle_scale positive]
  cases clampHandle segment.toKnot side target domain with
  | error fault => rfl
  | ok handle =>
    show (if paired then mirrorHandle ((segment.scaled factor).setHandle side
        (handle.scale factor)) side (domain * factor) else _) = _
    cases paired with
    | false => exact congrArg Except.ok (segment.setHandle_scaled side handle)
    | true =>
      rw [Segment.setHandle_scaled]
      exact mirrorHandle_scaled positive (segment.setHandle side handle) side domain

theorem moveItem_scaled (positive : 0 < factor) (selection : Selection ℝ) (paired : Bool)
    (path : Path ℝ) (item : Item) (target : Point ℝ) :
    moveItem (selection.scaled factor) paired (path.scaled factor) item (target.scale factor) =
      (moveItem selection paired path item target).map (Path.scaled factor) := by
  unfold moveItem
  rw [Path.find?_scaled]
  cases path.find? item.segment with
  | none => rfl
  | some segment =>
    simp only [Option.map_some]
    cases item.part with
    | handle side =>
      dsimp only
      rw [show (path.scaled factor).domain = path.domain * factor from rfl,
        dragHandle_scaled positive]
      cases dragHandle segment side target path.domain paired with
      | error fault => rfl
      | ok changed =>
        exact congrArg Except.ok (path.modify_scaled item.segment fun _ => rfl)
    | anchor =>
      dsimp only
      rw [Point.scale_x, anchorX_scaled positive]
      exact congrArg Except.ok (path.modify_scaled item.segment fun _ => rfl)

theorem moves_scaled (selection : Selection ℝ) :
    moves (selection.scaled factor) = (moves selection).map (scaledTarget factor) := by
  unfold moves Selection.scaled
  dsimp only
  rw [List.filterMap_map, List.map_filterMap]
  refine congrArg (List.filterMap · _) (funext fun entry => ?_)
  show (entry.frozen.map _).map _ = (entry.frozen.map _).map _
  rw [Option.map_map, Option.map_map]
  rfl

/-! ### Smoothing one anchor -/

theorem smoothInterior_scaled (positive : 0 < factor) (segment : Segment ℝ)
    (previous next : Point ℝ) (domain : ℝ) :
    smoothInterior (segment.scaled factor) (previous.scale factor) (next.scale factor)
        (domain * factor) =
      (smoothInterior segment previous next domain).map (Segment.scaled factor) := by
  have tangent : (next.scale factor - previous.scale factor).divide 6 =
      ((next - previous).divide 6).scale factor := by
    rw [Point.scale_sub, Vec.divide_scale]
  unfold smoothInterior
  dsimp only
  rw [tangent]
  show Except.bind (clampHandle (segment.toKnot.scale factor) .outgoing
      (segment.point.scale factor + ((next - previous).divide 6).scale factor)
      (domain * factor)) _ = _
  rw [Point.scale_add, clampHandle_scale positive]
  cases clampHandle segment.toKnot .outgoing (segment.point + (next - previous).divide 6)
    domain with
  | error fault => rfl
  | ok handleOut =>
    show Except.bind (clampHandle (({ segment.toKnot with handleOut } : Knot ℝ).scale factor)
      .incoming (segment.point.scale factor - ((next - previous).divide 6).scale factor)
      (domain * factor)) _ = Except.map _ (Except.bind (clampHandle { segment.toKnot with handleOut }
      .incoming (segment.point - (next - previous).divide 6) domain) _)
    rw [Point.scale_back, clampHandle_scale positive]
    cases clampHandle { segment.toKnot with handleOut } .incoming
      (segment.point - (next - previous).divide 6) domain <;> rfl

theorem smoothSegment_scaled (positive : 0 < factor) (segment : Segment ℝ)
    (previous next : Option (Point ℝ)) (length domain : ℝ) :
    smoothSegment (segment.scaled factor) (previous.map (·.scale factor))
        (next.map (·.scale factor)) (length * factor) (domain * factor) =
      (smoothSegment segment previous next length domain).map (Segment.scaled factor) := by
  have towards : ∀ point : Point ℝ, (point.scale factor - (segment.scaled factor).point).withLength
      (length * factor) = ((point - segment.point).withLength length).scale factor := by
    intro point
    rw [← Vec.withLength_scale positive, ← Point.scale_sub]
    rfl
  unfold smoothSegment
  cases previous with
  | none =>
    cases next with
    | none => rfl
    | some next =>
      simp only [Option.map_none, Option.map_some, towards]
      rfl
  | some previous =>
    cases next with
    | none =>
      simp only [Option.map_none, Option.map_some, towards]
      rfl
    | some next => exact smoothInterior_scaled positive segment previous next domain

theorem smoothAnchor_scaled (positive : 0 < factor) (length : ℝ) (path : Path ℝ)
    (id : SegmentId) :
    smoothAnchor (length * factor) (path.scaled factor) id =
      (smoothAnchor length path id).map (Path.scaled factor) := by
  have point : ∀ neighbour : Option (Segment ℝ),
      (neighbour.map (Segment.scaled factor)).map (·.point) =
        (neighbour.map (·.point)).map (·.scale factor) := by
    intro neighbour
    rw [Option.map_map, Option.map_map]
    rfl
  unfold smoothAnchor
  dsimp only
  rw [Path.previous?_scaled, Path.next?_scaled, Path.find?_scaled, point, point]
  cases path.find? id with
  | none => rfl
  | some segment =>
    simp only [Option.map_some]
    rw [show (path.scaled factor).domain = path.domain * factor from rfl,
      smoothSegment_scaled positive]
    cases smoothSegment segment ((path.previous? id).map (·.point))
      ((path.next? id).map (·.point)) length path.domain with
    | error fault => rfl
    | ok changed => exact congrArg Except.ok (path.modify_scaled id fun _ => rfl)

/-! ### Sessions -/

/-- The sessions differ in the unit of length, and perhaps in what belongs to compiling. -/
structure Scaled (factor : ℝ) (session other : Session ℝ) : Prop where
  path : other.path = session.path.scaled factor
  ids : other.ids = session.ids
  selection : other.selection = session.selection.scaled factor
  settings : other.settings = session.settings.scaled factor
  grid : other.grid = session.grid
  cursor : other.cursor = session.cursor
  press : other.press = session.press.map (PointerEvent.scaled factor)
  isDown : other.isDown = session.isDown

namespace Scaled

variable {session other : Session ℝ}

theorem hitTest (scaled : Scaled factor session other) (positive : 0 < factor)
    (position : Point ℝ) :
    other.hitTest (position.scale factor) =
      (session.hitTest position).map (Hit.scaled factor) := by
  have all : (session.path.scaled factor).segments.flatMap targets =
      (session.path.segments.flatMap targets).map (scaledTarget factor) := by
    unfold Path.scaled
    rw [List.flatMap_map, List.map_flatMap]
    exact congrArg (List.flatMap · _) (funext fun segment => targets_scaled positive segment)
  unfold Session.hitTest
  rw [scaled.path, scaled.settings, all, Settings.hitRadius_scaled]
  exact foldl_nearerHit_scaled positive position _ _ none

/-- The pointer hits the same item. -/
theorem hitItem (scaled : Scaled factor session other) (positive : 0 < factor)
    (position : Point ℝ) :
    (other.hitTest (position.scale factor)).map (·.item) =
      (session.hitTest position).map (·.item) := by
  rw [scaled.hitTest positive, Option.map_map]
  rfl

theorem cursorAt (scaled : Scaled factor session other) (positive : 0 < factor)
    (position : Point ℝ) (modifiers : Modifiers) :
    other.cursorAt (position.scale factor) modifiers = session.cursorAt position modifiers := by
  unfold Session.cursorAt
  rw [scaled.path, scaled.settings, scaled.isDown, Settings.hitRadius_scaled,
    Path.nearest?_scaled positive, Option.isSome_map]

theorem hover (scaled : Scaled factor session other) (positive : 0 < factor) (position : Point ℝ)
    (modifiers : Modifiers) :
    Scaled factor (session.hover position modifiers)
      (other.hover (position.scale factor) modifiers) :=
  { scaled with cursor := scaled.cursorAt positive position modifiers }

theorem freezeSelection (scaled : Scaled factor session other) :
    Scaled factor session.freezeSelection other.freezeSelection := by
  have points : other.pointOf? = fun item => (session.pointOf? item).map (·.scale factor) := by
    funext item
    unfold pointOf?
    rw [scaled.path, Path.find?_scaled, Option.map_map, Option.map_map]
    exact congrArg (Option.map · _) (funext fun segment => partPoint_scaled segment item.part)
  refine { scaled with selection := ?_ }
  unfold Session.freezeSelection
  dsimp only
  rw [scaled.selection, points, Selection.freeze_scaled]

/-! ### A press -/

theorem selectOnPress_scaled (selection : Selection ℝ) (hit : Option Item)
    (event : PointerEvent ℝ) :
    selectOnPress (selection.scaled factor) hit (event.scaled factor) =
      (selectOnPress selection hit event).scaled factor := by
  unfold selectOnPress
  simp only [Selection.contains_scaled, Selection.insert_scaled]
  cases hit with
  | none => simp only [apply_ite (Selection.scaled factor)]; rfl
  | some item =>
    simp only [apply_ite (Selection.scaled factor), Selection.only_scaled]
    rfl

theorem pressDown (scaled : Scaled factor session other) (positive : 0 < factor)
    (event : PointerEvent ℝ) :
    Scaled factor (session.pressDown event) (other.pressDown (event.scaled factor)) := by
  unfold Session.pressDown
  rw [show (event.scaled factor).button = event.button from rfl]
  split
  · let down : Session ℝ := { session with isDown := true, press := some event }
    let down' : Session ℝ := { other with isDown := true, press := some (event.scaled factor) }
    have lowered : Scaled factor down down' := { scaled with press := rfl, isDown := rfl }
    have item : (down'.hitTest (event.scaled factor).position).map (·.item) =
        (down.hitTest event.position).map (·.item) := lowered.hitItem positive event.position
    have selected : selectOnPress other.selection
        ((down'.hitTest (event.scaled factor).position).map (·.item)) (event.scaled factor) =
        (selectOnPress session.selection ((down.hitTest event.position).map (·.item))
          event).scaled factor := by
      rw [scaled.selection, item, selectOnPress_scaled]
    refine hover (freezeSelection ?_) positive event.position event.modifiers
    exact { lowered with selection := selected }
  · exact scaled

/-! ### Dragging the selection -/

theorem dragTarget (scaled : Scaled factor session other) (positive : 0 < factor)
    (press event : PointerEvent ℝ) (frozen : Point ℝ) :
    other.dragTarget (press.scaled factor) (event.scaled factor) (frozen.scale factor) =
      (session.dragTarget press event frozen).scale factor := by
  have moved : frozen.scale factor +
      ((event.scaled factor).position - (press.scaled factor).position) =
        (frozen + (event.position - press.position)).scale factor := by
    rw [← Point.scale_add, ← Point.scale_sub]
    rfl
  unfold Session.dragTarget
  dsimp only
  rw [moved, scaled.path, scaled.settings]
  show (if event.modifiers.snapsToGrid then _ else _) = _
  split
  · exact snapToGrid_scale positive session.path.domain session.settings.snapCells _
  · rfl

theorem transform (scaled : Scaled factor session other) (positive : 0 < factor)
    {moved : Session ℝ} (event : PointerEvent ℝ) (run : session.transform event = .ok moved) :
    ∃ moved', other.transform (event.scaled factor) = .ok moved' ∧
      Scaled factor moved moved' := by
  cases pressed : session.press with
  | none =>
    have pressed' : other.press = none := by rw [scaled.press, pressed]; rfl
    unfold Session.transform at run ⊢
    rw [pressed] at run
    rw [pressed']
    obtain rfl := Except.ok.inj run
    exact ⟨other, rfl, scaled⟩
  | some press =>
    have pressed' : other.press = some (press.scaled factor) := by rw [scaled.press, pressed]; rfl
    have step : ∀ (path : Path ℝ) (move : Item × Point ℝ),
        moveItem other.selection (event.scaled factor).modifiers.editsExclusively
          (path.scaled factor) (scaledTarget factor move).1
          (other.dragTarget (press.scaled factor) (event.scaled factor)
            (scaledTarget factor move).2) =
        (moveItem session.selection event.modifiers.editsExclusively path move.1
          (session.dragTarget press event move.2)).map (Path.scaled factor) := by
      intro path move
      show moveItem other.selection _ _ move.1
        (other.dragTarget (press.scaled factor) (event.scaled factor) (move.2.scale factor)) = _
      rw [scaled.dragTarget positive, scaled.selection]
      exact moveItem_scaled positive session.selection _ path move.1 _
    rw [session.transform_eq event pressed] at run
    rw [other.transform_eq (event.scaled factor) pressed', scaled.path, scaled.selection,
      moves_scaled, Selection.isEmpty_scaled, ← scaled.selection, List.foldlM_map,
      foldlM_map_of_step step]
    split at run
    case isTrue empty =>
      obtain rfl := Except.ok.inj run
      exact ⟨other, if_pos empty, scaled⟩
    case isFalse filled =>
      obtain ⟨path, way, rfl⟩ := exists_ok_of_map run
      rw [if_neg filled, way]
      refine ⟨_, rfl, ?_⟩
      exact { scaled with path := rfl, grid := rfl }

theorem drag (scaled : Scaled factor session other) (positive : 0 < factor)
    {dragged : Session ℝ} (event : PointerEvent ℝ) (run : session.drag event = .ok dragged) :
    ∃ dragged', other.drag (event.scaled factor) = .ok dragged' ∧
      Scaled factor dragged dragged' := by
  unfold Session.drag at run ⊢
  rw [scaled.isDown]
  split at run
  case isTrue down =>
    obtain ⟨moved, way, rfl⟩ := exists_ok_of_map run
    obtain ⟨moved', way', scaled⟩ := scaled.transform positive event way
    rw [if_pos down, way']
    exact ⟨_, rfl, scaled.hover positive event.position event.modifiers⟩
  case isFalse up =>
    obtain rfl := Except.ok.inj run
    rw [if_neg up]
    exact ⟨other, rfl, scaled⟩

/-! ### Smoothing -/

theorem flatten (scaled : Scaled factor session other) (id : SegmentId) :
    Scaled factor (session.flatten id) (other.flatten id) := by
  refine { scaled with path := ?_, selection := ?_ }
  · unfold Session.flatten
    dsimp only
    rw [scaled.path]
    exact session.path.modify_scaled id Segment.flatten_scaled
  · unfold Session.flatten
    dsimp only
    rw [scaled.selection, Selection.remove_scaled, Selection.remove_scaled]

theorem foldl_flatten (scaled : Scaled factor session other) (ids : List SegmentId) :
    Scaled factor (ids.foldl Session.flatten session) (ids.foldl Session.flatten other) := by
  induction ids generalizing session other with
  | nil => exact scaled
  | cons id rest ih => exact ih (scaled.flatten id)

theorem onlyLinear (scaled : Scaled factor session other) (positive : 0 < factor) :
    other.onlyLinear = session.onlyLinear := by
  have linear : ∀ segment : Segment ℝ, (segment.scaled factor).isLinear = segment.isLinear := by
    intro segment
    unfold Knot.isLinear Segment.scaled Knot.scale
    simp only [Vec.isZero_scale positive]
  have found : other.path.find? = fun id => (session.path.find? id).map (Segment.scaled factor) := by
    funext id
    rw [scaled.path, Path.find?_scaled]
  unfold Session.onlyLinear
  rw [scaled.selection, Selection.anchors_scaled, found, ← List.map_filterMap, List.all_map]
  exact congrArg (List.all _) (funext linear)

theorem toggleSmoothing (scaled : Scaled factor session other) (positive : 0 < factor)
    {toggled : Session ℝ × Bool} (run : session.toggleSmoothing = .ok toggled) :
    ∃ toggled', other.toggleSmoothing = .ok toggled' ∧ Scaled factor toggled.1 toggled'.1 ∧
      toggled'.2 = toggled.2 := by
  unfold Session.toggleSmoothing at run ⊢
  dsimp only at run ⊢
  rw [scaled.onlyLinear positive, scaled.selection, Selection.anchors_scaled]
  split at run
  case isTrue linear =>
    have length : other.settings.smoothingRatio * other.path.domain =
        session.settings.smoothingRatio * session.path.domain * factor := by
      rw [scaled.settings, scaled.path]
      exact (mul_assoc _ _ _).symm
    have smoothed := foldlM_map_of_step
      (smoothAnchor_scaled positive (session.settings.smoothingRatio * session.path.domain))
      session.selection.anchors session.path
    obtain ⟨path, way, rfl⟩ := exists_ok_of_map run
    rw [way] at smoothed
    rw [if_pos linear, length, scaled.path, smoothed]
    refine ⟨_, rfl, ?_, rfl⟩
    exact { scaled with path := rfl, selection := rfl }
  case isFalse curved =>
    obtain rfl := Except.ok.inj run
    rw [if_neg curved]
    exact ⟨_, rfl, scaled.foldl_flatten session.selection.anchors, rfl⟩

/-! ### Deleting and inserting -/

theorem removeAnchor (scaled : Scaled factor session other) (removed : ℕ) (id : SegmentId) :
    Scaled factor (Session.removeAnchor (session, removed) id).1
        (Session.removeAnchor (other, removed) id).1 ∧
      (Session.removeAnchor (other, removed) id).2 =
        (Session.removeAnchor (session, removed) id).2 := by
  unfold Session.removeAnchor
  dsimp only
  rw [scaled.path, Path.remove?_scaled]
  cases session.path.remove? id with
  | none => exact ⟨scaled, rfl⟩
  | some path =>
    refine ⟨?_, rfl⟩
    have rest : other.selection.removeSegment id =
        (session.selection.removeSegment id).scaled factor := by
      rw [scaled.selection]
      exact session.selection.retain_scaled _
    exact { scaled with path := rfl, selection := rest }

theorem foldl_removeAnchor (scaled : Scaled factor session other) (ids : List SegmentId)
    (removed : ℕ) :
    Scaled factor (ids.foldl Session.removeAnchor (session, removed)).1
        (ids.foldl Session.removeAnchor (other, removed)).1 ∧
      (ids.foldl Session.removeAnchor (other, removed)).2 =
        (ids.foldl Session.removeAnchor (session, removed)).2 := by
  induction ids generalizing session other removed with
  | nil => exact ⟨scaled, rfl⟩
  | cons id rest ih =>
    obtain ⟨next, counted⟩ := scaled.removeAnchor removed id
    rw [List.foldl_cons, List.foldl_cons]
    have later := ih next (Session.removeAnchor (session, removed) id).2
    rwa [show ((Session.removeAnchor (other, removed) id).1,
        (Session.removeAnchor (session, removed) id).2) = Session.removeAnchor (other, removed) id
      from Prod.ext rfl counted.symm] at later

/-- The same anchors are to be deleted. -/
theorem doomed (scaled : Scaled factor session other) :
    (other.selection.anchors.filter fun id => !other.path.isEndpoint id) =
      session.selection.anchors.filter fun id => !session.path.isEndpoint id := by
  rw [scaled.selection, Selection.anchors_scaled, scaled.path]
  simp only [Path.isEndpoint_scaled]

theorem withInserted [Numeral ℝ] (scaled : Scaled factor session other) (positive : 0 < factor)
    (point : Point ℝ)
    (now : ℕ) :
    Scaled factor (session.withInserted point now).1
        (other.withInserted (point.scale factor) now).1 ∧
      (other.withInserted (point.scale factor) now).2 = (session.withInserted point now).2 := by
  unfold Session.withInserted
  rw [scaled.path, scaled.ids, Path.insert_scaled positive]
  cases session.path.insert session.ids point with
  | error error => exact ⟨scaled, rfl⟩
  | ok inserted =>
    refine ⟨?_, rfl⟩
    exact { scaled with path := rfl, ids := rfl, selection := (Selection.only_scaled _ now).symm }

/-! ### The end of a gesture -/

/-- What makes a click has no unit. -/
theorem isClick (scaled : Scaled factor session other) (positive : 0 < factor)
    (event : PointerEvent ℝ) : other.isClick (event.scaled factor) = session.isClick event := by
  unfold Session.isClick
  rw [scaled.press, scaled.settings]
  cases session.press with
  | none => rfl
  | some press =>
    have moved : ((event.scaled factor).position - (press.scaled factor).position).length =
        (event.position - press.position).length * factor := by
      rw [← Vec.length_scale positive, ← Point.scale_sub]
      rfl
    simp only [Option.map_some]
    rw [moved, Settings.clickRadius_scaled]
    simp only [mul_lt_mul_iff_left₀ positive]
    rfl

theorem selectOnClick (scaled : Scaled factor session other) (positive : 0 < factor)
    (event : PointerEvent ℝ) :
    other.selectOnClick (event.scaled factor) = (session.selectOnClick event).scaled factor := by
  unfold Session.selectOnClick
  rw [show (event.scaled factor).position = event.position.scale factor from rfl,
    scaled.hitTest positive, scaled.selection, scaled.settings]
  show (if event.modifiers.addsToSelection then _ else _) = _
  split
  · cases session.hitTest event.position with
    | none => rfl
    | some hit =>
      show (if (session.selection.scaled factor).isRecent hit.item event.time
          session.settings.clickDebounce then _ else
            (session.selection.scaled factor).toggle hit.item event.time) = _
      rw [Selection.isRecent_scaled, Selection.toggle_scaled]
      simp only [apply_ite (Selection.scaled factor)]
  · rfl

theorem click (scaled : Scaled factor session other) (positive : 0 < factor)
    {clicked : Session ℝ} (event : PointerEvent ℝ) (run : session.click event = .ok clicked) :
    ∃ clicked', other.click (event.scaled factor) = .ok clicked' ∧
      Scaled factor clicked clicked' := by
  have selected : Scaled factor { session with selection := session.selectOnClick event }
      { other with selection := other.selectOnClick (event.scaled factor) } :=
    { scaled with selection := scaled.selectOnClick positive event }
  unfold Session.click at run ⊢
  dsimp only at run ⊢
  rw [show (event.scaled factor).modifiers = event.modifiers from rfl]
  split at run
  case isTrue exclusive =>
    obtain ⟨toggled, way, rfl⟩ := exists_ok_of_map run
    obtain ⟨toggled', way', scaled', -⟩ := selected.toggleSmoothing positive way
    rw [if_pos exclusive, way']
    exact ⟨toggled'.1, rfl, scaled'⟩
  case isFalse plain =>
    obtain rfl := Except.ok.inj run
    rw [if_neg plain]
    exact ⟨_, rfl, selected⟩

theorem lift (scaled : Scaled factor session other) (positive : 0 < factor)
    {lifted : Session ℝ} (event : PointerEvent ℝ) (run : session.lift event = .ok lifted) :
    ∃ lifted', other.lift (event.scaled factor) = .ok lifted' ∧ Scaled factor lifted lifted' := by
  have up : Scaled factor { session with isDown := false } { other with isDown := false } :=
    { scaled with isDown := rfl }
  unfold Session.lift at run ⊢
  rw [up.isClick positive]
  split at run
  case isTrue click =>
    rw [if_pos click]
    exact up.click positive event run
  case isFalse still =>
    obtain rfl := Except.ok.inj run
    rw [if_neg still]
    exact ⟨_, rfl, up⟩

/-! ### Settling -/

/-- Settling shows nothing of the unit. -/
theorem settle [Numeral ℝ] (scaled : Scaled factor session other) :
    Scaled factor session.settle other.settle := by
  rw [settle_frame session, settle_frame other]
  exact { scaled with }

end Scaled

end Session

/-! ### Calls -/

variable [Numeral ℝ]

/-- A call with its positions in another unit. -/
noncomputable def Edit.scaled (factor : ℝ) : Edit ℝ → Edit ℝ
  | .insert point now => .insert (point.scale factor) now
  | .delete => .delete
  | .smooth => .smooth
  | .press event => .press (event.scaled factor)
  | .drag event => .drag (event.scaled factor)
  | .release event => .release (event.scaled factor)

/-- A call with its positions in another unit. -/
noncomputable def Call.scaled (factor : ℝ) : Call ℝ → Call ℝ
  | .edit change => .edit (change.scaled factor)
  | .setOptions options => .setOptions options
  | .freeze => .freeze
  | .transform event => .transform (event.scaled factor)
  | .hover position modifiers => .hover (position.scale factor) modifiers
  | .settle => .settle

variable {session other edited : Session ℝ} {settles : Bool}

theorem Edit.edited_scaled (scaled : Session.Scaled factor session other) (positive : 0 < factor)
    (edit : Edit ℝ) (run : edit.edited session = .ok (edited, settles)) :
    ∃ edited', (edit.scaled factor).edited other = .ok (edited', settles) ∧
      Session.Scaled factor edited edited' := by
  cases edit with
  | insert point now =>
    simp only [Edit.edited, Edit.scaled] at run ⊢
    obtain ⟨x, clamped, inserted⟩ := exists_ok_of_map run
    rw [scaled.path, Point.scale_x]
    show ∃ edited', (clampToDomain (session.path.domain * factor) (point.x * factor)).map _ = _ ∧ _
    rw [clampToDomain_scale positive, clamped]
    obtain ⟨next, flag⟩ := scaled.withInserted positive ⟨x, point.y⟩ now
    rw [inserted] at next flag
    exact ⟨_, congrArg Except.ok (Prod.ext rfl flag), next⟩
  | delete =>
    simp only [Edit.edited, Edit.scaled] at run ⊢
    obtain ⟨rfl, rfl⟩ := Prod.mk.inj (Except.ok.inj run)
    obtain ⟨next, count⟩ := scaled.foldl_removeAnchor
      (session.selection.anchors.filter fun id => !session.path.isEndpoint id) 0
    rw [scaled.doomed, count]
    exact ⟨_, rfl, next⟩
  | smooth =>
    simp only [Edit.edited, Edit.scaled] at run ⊢
    obtain ⟨toggled, way, pair⟩ := exists_ok_of_map run
    obtain ⟨rfl, rfl⟩ := Prod.mk.inj pair
    obtain ⟨toggled', way', next, -⟩ := scaled.toggleSmoothing positive way
    rw [way']
    exact ⟨_, rfl, next⟩
  | press event =>
    obtain ⟨rfl, rfl⟩ := Prod.mk.inj (Except.ok.inj run)
    exact ⟨_, rfl, scaled.pressDown positive event⟩
  | drag event =>
    simp only [Edit.edited, Edit.scaled] at run ⊢
    obtain ⟨dragged, way, pair⟩ := exists_ok_of_map run
    obtain ⟨rfl, rfl⟩ := Prod.mk.inj pair
    obtain ⟨dragged', way', next⟩ := scaled.drag positive event way
    rw [way']
    exact ⟨_, rfl, next⟩
  | release event =>
    simp only [Edit.edited, Edit.scaled] at run ⊢
    rw [scaled.isDown]
    split at run
    case isTrue down =>
      obtain ⟨lifted, way, pair⟩ := exists_ok_of_map run
      obtain ⟨rfl, rfl⟩ := Prod.mk.inj pair
      obtain ⟨lifted', way', next⟩ := scaled.lift positive event way
      rw [if_pos down, way']
      refine ⟨_, rfl, ?_⟩
      exact { next with grid := rfl }
    case isFalse up =>
      obtain ⟨rfl, rfl⟩ := Prod.mk.inj (Except.ok.inj run)
      rw [if_neg up]
      exact ⟨other, rfl, scaled⟩

/-- **A call does the same in every unit**, up to the unit, and settles in both sessions or in
neither. -/
theorem Call.edited_scaled (scaled : Session.Scaled factor session other) (positive : 0 < factor)
    (call : Call ℝ) (run : call.edited session = .ok (edited, settles)) :
    ∃ edited', (call.scaled factor).edited other = .ok (edited', settles) ∧
      Session.Scaled factor edited edited' := by
  cases call with
  | edit change => exact change.edited_scaled scaled positive run
  | setOptions options =>
    simp only [Call.edited, Call.scaled] at run ⊢
    rw [show other.settings.compile = session.settings.compile by rw [scaled.settings]; rfl]
    split at run
    case isTrue same =>
      obtain ⟨rfl, rfl⟩ := Prod.mk.inj (Except.ok.inj run)
      rw [if_pos same]
      exact ⟨other, rfl, scaled⟩
    case isFalse different =>
      obtain ⟨rfl, rfl⟩ := Prod.mk.inj (Except.ok.inj run)
      rw [if_neg different, scaled.settings]
      refine ⟨_, rfl, ?_⟩
      exact { scaled with settings := rfl }
  | freeze =>
    obtain ⟨rfl, rfl⟩ := Prod.mk.inj (Except.ok.inj run)
    exact ⟨_, rfl, scaled.freezeSelection⟩
  | transform event =>
    simp only [Call.edited, Call.scaled] at run ⊢
    obtain ⟨moved, way, pair⟩ := exists_ok_of_map run
    obtain ⟨rfl, rfl⟩ := Prod.mk.inj pair
    obtain ⟨moved', way', next⟩ := scaled.transform positive event way
    rw [way']
    exact ⟨_, rfl, next⟩
  | hover position modifiers =>
    obtain ⟨rfl, rfl⟩ := Prod.mk.inj (Except.ok.inj run)
    exact ⟨_, rfl, scaled.hover positive position modifiers⟩
  | settle =>
    obtain ⟨rfl, rfl⟩ := Prod.mk.inj (Except.ok.inj run)
    exact ⟨other, rfl, scaled⟩

/-- The end of a call does the same in every unit. -/
theorem Call.finish_scaled (scaled : Session.Scaled factor edited other) (positive : 0 < factor)
    (call : Call ℝ) (settles : Bool) :
    Session.Scaled factor (call.finish (edited, settles))
      ((call.scaled factor).finish (other, settles)) := by
  unfold Call.finish
  split
  · cases call with
    | edit change =>
      cases change with
      | release event => exact scaled.settle.hover positive event.position event.modifiers
      | _ => exact scaled.settle
    | _ => exact scaled.settle
  · exact scaled

end Easing
