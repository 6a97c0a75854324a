/-
**Smoothing twice restores what was linear.**

One call either gives handles to selected anchors that have none, or takes the handles of all of
them away. Whatever handles the first call gives, to some of the anchors or to none, the second call
leaves none: it flattens what is curved, and where nothing became curved it repeats the first call,
which changed nothing.

* `Path.LinearAt`: the anchors under some identifiers have no handles.
* `Session.toggleSmoothing_frame`: a call changes the handles of selected anchors alone.
* `Session.toggleSmoothing_restores`: what one call does, and what two do.
-/
import Mathlib
import Easing.Proofs.Path.Agreement
import Easing.Proofs.Reach
import Easing.Proofs.Session.Deletion

set_option linter.unusedSectionVars false

namespace Easing

open Easing.Path

/-- A handle of a segment under one of some identifiers. -/
def HandleOf (ids : List SegmentId) (item : Item) : Prop :=
  item.segment ∈ ids ∧ item.part ≠ .anchor

instance (ids : List SegmentId) (item : Item) : Decidable (HandleOf ids item) :=
  inferInstanceAs (Decidable (_ ∧ _))

theorem handleOf_cons (id : SegmentId) (ids : List SegmentId) (item : Item) :
    HandleOf (id :: ids) item ↔ HandleOf [id] item ∨ HandleOf ids item := by
  unfold HandleOf
  rw [List.mem_cons, List.mem_singleton, or_and_right]

theorem handleOf_singleton {id : SegmentId} {item : Item} :
    HandleOf [id] item ↔ item = Item.handle id .incoming ∨ item = Item.handle id .outgoing := by
  obtain ⟨segment, _ | _ | _⟩ := item <;> simp [HandleOf, Item.handle]

/-! ### Handles and anchors -/

section Frames

variable {α : Type} [Scalar α] {path other : Path α} {ids : List SegmentId}
  {segment changed : Segment α}

namespace Path

/-- Paths that agree but in handles have the same anchors. -/
theorem AgreeBut.sameAnchors (agree : AgreeBut (HandleOf ids) path other) :
    SameAnchors path other := by
  refine ⟨agree.domain, List.ext_getElem? fun index => ?_⟩
  rw [List.getElem?_map, List.getElem?_map]
  cases found : path.segments[index]? with
  | none => rw [getElem?_eq_none_of_ids agree.ids found]
  | some segment =>
    obtain ⟨segment', found', sameId⟩ := getElem?_of_ids agree.ids found
    have point : segment'.point = segment.point := by
      refine (agree.each index _ _ found found').point ?_
      rintro ⟨-, -, isHandle⟩
      exact isHandle rfl
    rw [found', Option.map_some, Option.map_some, sameId, point]

/-- A segment under another identifier stays as it is. -/
theorem AgreeBut.getElem? (agree : AgreeBut (HandleOf ids) path other) {index : Nat}
    (found : path.segments[index]? = some segment) (apart : segment.id ∉ ids) :
    other.segments[index]? = some segment := by
  obtain ⟨segment', found', -⟩ := getElem?_of_ids agree.ids found
  rw [found', (agree.each index _ _ found found').eq fun part loose => apart loose.2.1]

/-- A change of handles alone. -/
theorem AgreeBut.of_onlyHandles {id : SegmentId} {change : Segment α → Segment α}
    (only : ∀ segment, path.find? id = some segment → OnlyHandles segment (change segment)) :
    AgreeBut (HandleOf [id]) path (path.modify id change) := by
  have same : path.modify id change =
      path.modify id fun segment => { change segment with id := segment.id } :=
    modify_congr fun segment found => by rw [← (only segment found).id]
  rw [same]
  refine AgreeBut.of_modify (fun _ => rfl) fun segment found => ?_
  exact ⟨rfl, fun _ => (only segment found).point, fun side bound =>
    absurd ⟨List.mem_singleton_self id, nofun⟩ bound⟩

end Path

namespace Session

theorem onlyHandles_of_smoothSegment {previous next : Option (Point α)} {length domain : α}
    (run : smoothSegment segment previous next length domain = .ok changed) :
    OnlyHandles segment changed := by
  unfold smoothSegment at run
  split at run
  · obtain rfl := Except.ok.inj run
    exact ⟨rfl, rfl⟩
  · obtain rfl := Except.ok.inj run
    exact ⟨rfl, rfl⟩
  · unfold smoothInterior at run
    obtain ⟨handleOut, -, run⟩ := exists_ok_of_bind run
    obtain ⟨handleIn, -, run⟩ := exists_ok_of_bind run
    obtain rfl := Except.ok.inj run
    exact ⟨rfl, rfl⟩
  · obtain rfl := Except.ok.inj run
    exact OnlyHandles.refl segment

/-- Smoothing an anchor changes its handles alone. -/
theorem smoothAnchor_frame {length : α} {id : SegmentId}
    (run : smoothAnchor length path id = .ok other) : AgreeBut (HandleOf [id]) path other := by
  unfold smoothAnchor at run
  cases found : path.find? id with
  | none =>
    rw [found] at run
    obtain rfl := Except.ok.inj run
    exact AgreeBut.refl _ _
  | some segment =>
    rw [found] at run
    obtain ⟨changed, smoothed, rfl⟩ := exists_ok_of_map run
    refine AgreeBut.of_onlyHandles fun before isBefore => ?_
    obtain rfl := Option.some.inj (found.symm.trans isBefore)
    exact onlyHandles_of_smoothSegment smoothed

/-- Changes of handles one after another. -/
theorem handles_trans {third : Path α} {id : SegmentId}
    (first : AgreeBut (HandleOf [id]) path other) (rest : AgreeBut (HandleOf ids) other third) :
    AgreeBut (HandleOf (id :: ids)) path third :=
  (first.mono fun _ loose => (handleOf_cons _ _ _).mpr (.inl loose)).trans
    (rest.mono fun _ loose => (handleOf_cons _ _ _).mpr (.inr loose))

theorem foldlM_smoothAnchor_frame {length : α}
    (run : ids.foldlM (smoothAnchor length) path = .ok other) :
    AgreeBut (HandleOf ids) path other := by
  induction ids generalizing path with
  | nil =>
    obtain rfl := Except.ok.inj run
    exact AgreeBut.refl _ _
  | cons id ids ih =>
    obtain ⟨next, first, rest⟩ := exists_ok_of_bind run
    exact handles_trans (smoothAnchor_frame first) (ih rest)

theorem foldl_flatten_frame (ids : List SegmentId) (session : Session α) :
    AgreeBut (HandleOf ids) session.path (ids.foldl flatten session).path := by
  induction ids generalizing session with
  | nil => exact AgreeBut.refl _ _
  | cons id ids ih =>
    have first : AgreeBut (HandleOf [id]) session.path (session.flatten id).path :=
      AgreeBut.of_onlyHandles fun _ _ => ⟨rfl, rfl⟩
    exact handles_trans first (ih (session.flatten id))

/-- A call changes the handles of selected anchors alone. -/
theorem toggleSmoothing_frame {session : Session α} {changed : Session α × Bool}
    (run : session.toggleSmoothing = .ok changed) :
    AgreeBut (HandleOf session.selection.anchors) session.path changed.1.path := by
  unfold toggleSmoothing at run
  dsimp only at run
  split at run
  · obtain ⟨path, smoothed, rfl⟩ := exists_ok_of_map run
    exact foldlM_smoothAnchor_frame smoothed
  · obtain rfl := Except.ok.inj run
    exact foldl_flatten_frame _ session

theorem flatten_selection (session : Session α) (id : SegmentId) :
    (session.flatten id).selection = session.selection.retain fun item => ¬HandleOf [id] item := by
  have same : ∀ item other : Item, item.rank = other.rank ↔ item = other := fun item other =>
    ⟨Item.rank_injective, congrArg Item.rank⟩
  unfold flatten Selection.remove
  rw [retain_retain]
  simp only [ne_eq, same, handleOf_singleton, not_or, Bool.decide_and, Bool.and_comm]

/-- Flattening takes the handles of its anchors out of the selection, and nothing else. -/
theorem foldl_flatten_selection (ids : List SegmentId) (session : Session α) :
    (ids.foldl flatten session).selection =
      session.selection.retain fun item => ¬HandleOf ids item := by
  induction ids generalizing session with
  | nil =>
    have none : (fun item => decide ¬HandleOf [] item) = fun _ => true := by
      funext item
      simp [HandleOf]
    rw [none, retain_all]
    rfl
  | cons id ids ih =>
    rw [List.foldl_cons, ih, flatten_selection, retain_retain]
    congr 1
    funext item
    rw [Bool.eq_iff_iff, Bool.and_eq_true, decide_eq_true_iff, decide_eq_true_iff,
      decide_eq_true_iff, handleOf_cons id ids, not_or, and_comm]

/-- The anchors that are selected stay selected. -/
theorem anchors_foldl_flatten (ids : List SegmentId) (session : Session α) :
    (ids.foldl flatten session).selection.anchors = session.selection.anchors := by
  rw [foldl_flatten_selection]
  unfold Selection.anchors Selection.items Selection.retain
  dsimp only
  rw [List.filter_map, List.filter_map, List.filter_filter]
  congr 2
  refine List.filter_congr fun entry _ => ?_
  show (decide (entry.item.part = .anchor) && decide ¬HandleOf ids entry.item) =
    decide (entry.item.part = .anchor)
  rw [Bool.and_eq_left_iff_imp, decide_eq_true_iff, decide_eq_true_iff]
  exact fun part loose => loose.2 part

/-- The handles of flattened anchors are not selected. -/
theorem not_contains_foldl_flatten {ids : List SegmentId} {id : SegmentId} (member : id ∈ ids)
    (session : Session α) (side : Side) :
    (ids.foldl flatten session).selection.contains (Item.handle id side) = false := by
  rw [foldl_flatten_selection, Bool.eq_false_iff]
  intro selected
  have kept := of_decide_eq_true ((contains_retain _ _ _).mp selected).2
  exact kept ⟨member, nofun⟩

end Session

end Frames

/-! ### Linear anchors -/

/-- The anchors under some identifiers have no handles. -/
def Path.LinearAt (path : Path ℝ) (ids : List SegmentId) : Prop :=
  ∀ id ∈ ids, ∀ segment, path.find? id = some segment → ∀ side, segment.handle side = ⟨0, 0⟩

namespace Session

variable {session : Session ℝ} {path other : Path ℝ} {ids : List SegmentId}

theorem isLinear_iff (segment : Segment ℝ) :
    segment.isLinear = true ↔ ∀ side, segment.handle side = ⟨0, 0⟩ := by
  have isZero : ∀ v : Vec ℝ, v.isZero = true ↔ v = ⟨0, 0⟩ := fun v => by
    rw [Vec.isZero_real, Vec.mk.injEq]
  unfold Knot.isLinear
  rw [Bool.and_eq_true, isZero, isZero]
  constructor
  · rintro ⟨first, second⟩ (_ | _)
    · exact first
    · exact second
  · exact fun none => ⟨none .incoming, none .outgoing⟩

/-- What decides between smoothing and flattening. -/
theorem onlyLinear_iff :
    session.onlyLinear = true ↔ session.path.LinearAt session.selection.anchors := by
  unfold onlyLinear
  rw [List.all_eq_true]
  simp only [List.mem_filterMap, isLinear_iff]
  constructor
  · exact fun linear id member segment found => linear segment ⟨id, member, found⟩
  · rintro linear segment ⟨id, member, found⟩
    exact linear id member segment found

theorem linearAt_foldl_flatten (ids : List SegmentId) (session : Session ℝ) :
    (ids.foldl flatten session).path.LinearAt ids := by
  intro id member segment found side
  rw [find?_foldl_flatten, Option.map_eq_some_iff] at found
  obtain ⟨before, -, rfl⟩ := found
  rw [if_pos member]
  cases side <;> exact Vec.mk.injEq _ _ _ _ |>.mpr ⟨Scalar.zero_real, Scalar.zero_real⟩

theorem handle?_of_linearAt {id : SegmentId} (linear : path.LinearAt ids) (member : id ∈ ids)
    (side : Side) : path.handle? id side = (path.index? id).map fun _ => ⟨0, 0⟩ := by
  unfold handle?
  rw [find?_eq_bind]
  cases place : path.index? id with
  | none => rfl
  | some index =>
    obtain ⟨segment, found, -⟩ := index?_eq_some place
    have first : path.find? id = some segment := by
      rw [find?_eq_bind, place, Option.bind_some, found]
    rw [Option.bind_some, found, Option.map_some, Option.map_some, linear id member segment first]

/-- Paths that differ in handles are the same when neither has these handles. -/
theorem eq_of_linearAt (agree : AgreeBut (HandleOf ids) path other) (linear : path.LinearAt ids)
    (linear' : other.LinearAt ids) : other = path := by
  refine agree.eq_of_handles fun item loose => ?_
  obtain ⟨id, part⟩ := item
  obtain ⟨member, isHandle⟩ := loose
  cases part with
  | anchor => exact absurd rfl isHandle
  | handle side =>
    refine ⟨side, rfl, ?_⟩
    rw [handle?_of_linearAt linear member, handle?_of_linearAt linear' member,
      index?_of_ids agree.ids]

/-! ### Smoothing -/

/-- Where an anchor is curved, the selected anchors are flattened. -/
theorem toggleSmoothing_of_curved (curved : ¬session.path.LinearAt session.selection.anchors) :
    session.toggleSmoothing = .ok (session.selection.anchors.foldl flatten session,
      !session.selection.anchors.isEmpty) := by
  unfold toggleSmoothing
  rw [if_neg fun linear => curved (onlyLinear_iff.mp linear)]

/-- Where no anchor is curved, the selected anchors are smoothed. -/
theorem toggleSmoothing_of_linear (linear : session.path.LinearAt session.selection.anchors) :
    session.toggleSmoothing = (session.selection.anchors.foldlM
        (smoothAnchor (session.settings.smoothingRatio * session.path.domain)) session.path).map
      fun path => ({ session with path }, !session.selection.anchors.isEmpty) := by
  unfold toggleSmoothing
  rw [if_pos (onlyLinear_iff.mpr linear)]

/-- **Smoothing what is linear is undone by the next call**, whether or not the first one has
changed an anchor. -/
theorem toggleSmoothing_twice {changed : Session ℝ × Bool}
    (linear : session.path.LinearAt session.selection.anchors)
    (run : session.toggleSmoothing = .ok changed) :
    ∃ restored, changed.1.toggleSmoothing = .ok restored ∧ restored.1.path = session.path := by
  have agree := toggleSmoothing_frame run
  have smoothed := run
  rw [toggleSmoothing_of_linear linear] at smoothed
  obtain ⟨path, -, rfl⟩ := exists_ok_of_map smoothed
  by_cases still : path.LinearAt session.selection.anchors
  · -- nothing was smoothed, so the second call is the first one again
    have same : path = session.path := eq_of_linearAt agree linear still
    rw [same] at run ⊢
    exact ⟨_, run, rfl⟩
  · have flattened : ({ session with path } : Session ℝ).toggleSmoothing = _ :=
      toggleSmoothing_of_curved still
    refine ⟨_, flattened, ?_⟩
    refine eq_of_linearAt (agree.trans (foldl_flatten_frame _ _)) linear ?_
    exact linearAt_foldl_flatten _ _

/-- What one call of smoothing does, and what a second one does to what was linear. -/
structure Toggles (session changed : Session ℝ) : Prop where
  anchors : SameAnchors session.path changed.path
  others : ∀ (index : Nat) (segment : Segment ℝ), session.path.segments[index]? = some segment →
    segment.id ∉ session.selection.anchors → changed.path.segments[index]? = some segment
  flattened : ¬session.path.LinearAt session.selection.anchors →
    changed.selection.anchors = session.selection.anchors ∧
      changed.path.LinearAt session.selection.anchors ∧
      ∀ id ∈ session.selection.anchors, ∀ side,
        changed.selection.contains (Item.handle id side) = false
  restored : session.path.LinearAt session.selection.anchors →
    ∃ restored, changed.toggleSmoothing = .ok restored ∧ restored.1.path = session.path

/-- **Smoothing toggles back to where it started.** A call returns in a domain that is an interval,
and in any domain when a selected anchor has a handle. It changes no anchor and no segment that is
not selected. It leaves a group of which one was curved without handles, on the path and in the
selection, and a group without handles is restored by the next call. -/
theorem toggleSmoothing_restores (session : Session ℝ) :
    (0 ≤ session.path.domain ∨ ¬session.path.LinearAt session.selection.anchors →
      ∃ changed, session.toggleSmoothing = .ok changed) ∧
    ∀ changed, session.toggleSmoothing = .ok changed → Toggles session changed.1 := by
  constructor
  · rintro (width | curved)
    · rw [← Scalar.zero_real] at width
      obtain ⟨changed, run, -⟩ := toggleSmoothing_ok width
      exact ⟨changed, run⟩
    · exact ⟨_, toggleSmoothing_of_curved curved⟩
  · intro changed run
    have agree := toggleSmoothing_frame run
    refine ⟨agree.sameAnchors, fun index segment found apart => agree.getElem? found apart,
      fun curved => ?_, fun linear => toggleSmoothing_twice linear run⟩
    rw [toggleSmoothing_of_curved curved] at run
    obtain rfl := Except.ok.inj run
    exact ⟨anchors_foldl_flatten _ _, linearAt_foldl_flatten _ _, fun id member side =>
      not_contains_foldl_flatten member session side⟩

/-- A session in exact arithmetic on a path, with one anchor selected. -/
noncomputable def exactSession (path : Path ℝ) (id : SegmentId) : Session ℝ where
  path
  ids := ⟨path.size⟩
  selection := Selection.only (Item.anchor id) 0
  settings := Settings.default
  grid := .coarse
  cursor := .crosshair
  press := none
  isDown := false
  pool := SolverPool.empty
  compiled := none
  compiledFrom := none
  hasError := false

/-- Three anchors without handles, on one level. -/
def threeCorners (first second third domain : ℝ) : Path ℝ :=
  { segments :=
      [⟨⟨⟨first, 0⟩, ⟨0, 0⟩, ⟨0, 0⟩⟩, ⟨0⟩⟩, ⟨⟨⟨second, 0⟩, ⟨0, 0⟩, ⟨0, 0⟩⟩, ⟨1⟩⟩,
        ⟨⟨⟨third, 0⟩, ⟨0, 0⟩, ⟨0, 0⟩⟩, ⟨2⟩⟩]
    domain }

/-- The anchors of a path without handles are linear. -/
theorem linearAt_threeCorners (first second third domain : ℝ) (ids : List SegmentId) :
    (threeCorners first second third domain).LinearAt ids := by
  intro id _ segment found side
  have member := (find?_eq_some found).1
  simp only [threeCorners, List.mem_cons, List.not_mem_nil, or_false] at member
  rcases member with rfl | rfl | rfl <;> cases side <;> rfl

/-- The middle anchor is smoothed, and flattened again. -/
theorem toggleSmoothing_restores_middle :
    let session := exactSession (threeCorners 0 (1 / 2) 1 1) ⟨1⟩
    0 ≤ session.path.domain ∧ session.path.LinearAt session.selection.anchors ∧
      ∃ changed restored, session.toggleSmoothing = .ok changed ∧
        changed.1.toggleSmoothing = .ok restored ∧ restored.1.path = session.path := by
  intro session
  have width : 0 ≤ session.path.domain := zero_le_one
  have linear : session.path.LinearAt session.selection.anchors := linearAt_threeCorners _ _ _ _ _
  obtain ⟨returns, toggles⟩ := toggleSmoothing_restores session
  obtain ⟨changed, run⟩ := returns (.inl width)
  obtain ⟨restored, again, same⟩ := (toggles changed run).restored linear
  exact ⟨width, linear, changed, restored, run, again, same⟩

/-! ### Domains below zero -/

/-- In a domain below zero there is no handle from an anchor before its end to a target behind. -/
theorem clampHandle_fault {knot : Knot ℝ} {side : Side} {target : Point ℝ} {domain : ℝ}
    (negative : domain < 0) (before : knot.point.x ≤ domain) (behind : domain < target.x) :
    clampHandle knot side target domain = .error .notAnInterval := by
  have outside : ¬(0 ≤ target.x ∧ target.x ≤ domain) := fun within =>
    absurd within.2 behind.not_ge
  have forward : knot.point.x < target.x := before.trans_lt behind
  have crossing := crossing_real domain (sub_ne_zero.mpr forward.ne')
  unfold clampHandle
  rw [Scalar.zero_real, if_neg outside]
  unfold boundCrossing
  simp only [Scalar.zero_real, Scalar.one_real, if_pos behind, if_pos forward.le, crossing]
  rw [Option.filter_some_pos (by simp [before, behind.le])]
  have refused : clampToDomain domain domain = .error .notAnInterval := by
    unfold clampToDomain
    rw [Scalar.zero_real, if_neg (not_le.mpr negative)]
  dsimp only
  rw [refused]
  rfl

/-- **Smoothing fails in a domain below zero**, and so does not toggle back. -/
theorem not_toggleSmoothing_restores : ¬∀ session : Session ℝ, session.selection.anchors ≠ [] →
    session.path.LinearAt session.selection.anchors →
      ∃ changed restored, session.toggleSmoothing = .ok changed ∧
        changed.1.toggleSmoothing = .ok restored ∧ restored.1.path = session.path := by
  intro restores
  let session := exactSession (threeCorners (-3) (-2) 12 (-1)) ⟨1⟩
  obtain ⟨changed, -, run, -⟩ := restores session nofun (linearAt_threeCorners _ _ _ _ _)
  let middle : Segment ℝ := ⟨⟨⟨-2, 0⟩, ⟨0, 0⟩, ⟨0, 0⟩⟩, ⟨1⟩⟩
  let ahead : Point ℝ := middle.point + ((⟨12, 0⟩ : Point ℝ) - (⟨-3, 0⟩ : Point ℝ)).divide 6
  have fault : clampHandle middle.toKnot .outgoing ahead (-1) = .error .notAnInterval := by
    refine clampHandle_fault (by norm_num) (by norm_num) ?_
    show (-1 : ℝ) < -2 + (12 - -3) * (@OfNat.ofNat ℝ 1 Scalar.instOfNat / 6)
    rw [Scalar.one_real]
    norm_num
  have smooth : smoothInterior middle ⟨-3, 0⟩ ⟨12, 0⟩ (-1) = .error .notAnInterval := by
    unfold smoothInterior
    dsimp only
    rw [fault]
    rfl
  have refused : session.toggleSmoothing = .error .notAnInterval := by
    rw [toggleSmoothing_of_linear (linearAt_threeCorners _ _ _ _ _)]
    show (smoothAnchor _ _ ⟨1⟩ >>= pure).map _ = _
    show ((smoothInterior middle ⟨-3, 0⟩ ⟨12, 0⟩ (-1)).map _ >>= pure).map _ = _
    rw [smooth]
    rfl
  rw [refused] at run
  cases run

end Session

end Easing
