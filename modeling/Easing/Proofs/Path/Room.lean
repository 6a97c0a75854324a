/-
**The room that anchors have.**

The bounds of a moving anchor are the nearest anchors on both sides that stay. They are read off
the path while other anchors have moved already, and `StandsStill` says why that does no harm: the
anchors that stay are the same, up to a sign of zero.

* `Path.lowAt`, `Path.highAt`: the bounds at an index, with their equations from one index to the
  next.
* `Path.lowAt_le`, `Path.le_highAt`: an anchor of a path in order lies between its bounds.
* `Path.StandsStill.lowAt`, `Path.StandsStill.highAt`: the bounds stay.
-/
import Easing.Proofs.Path.Order

set_option linter.unusedSectionVars false

namespace Easing

namespace Path

open Scalar OrderedScalar

variable {α : Type} [Scalar α] {path other : Path α} {moving : SegmentId → Bool} {index : Nat}

/-! ### Bounds by index -/

/-- The x of the nearest anchor before an index that does not move. -/
def lowAt (path : Path α) (moving : SegmentId → Bool) (index : Nat) : α :=
  (((List.range index).reverse.find? (path.isFixed moving)).bind path.anchorX?).getD 0

/-- The x of the nearest anchor after an index that does not move. -/
def highAt (path : Path α) (moving : SegmentId → Bool) (index : Nat) : α :=
  (((List.range' (index + 1) (path.size - (index + 1))).find? (path.isFixed moving)).bind
    path.anchorX?).getD path.domain

theorem bounds?_eq {id : SegmentId} (at? : path.index? id = some index) :
    path.bounds? id moving = some (path.lowAt moving index, path.highAt moving index) := by
  unfold bounds?
  rw [at?]
  rfl

theorem lowAt_succ :
    path.lowAt moving (index + 1) =
      if path.isFixed moving index then (path.anchorX? index).getD 0
      else path.lowAt moving index := by
  unfold lowAt
  rw [List.range_succ, List.reverse_append, List.reverse_singleton, List.singleton_append,
    List.find?_cons]
  split
  case h_1 fixed => rw [fixed, if_pos rfl, Option.bind_some]
  case h_2 moves => rw [moves, if_neg Bool.false_ne_true]

theorem highAt_last (last : path.size ≤ index + 1) : path.highAt moving index = path.domain := by
  unfold highAt
  rw [Nat.sub_eq_zero_of_le last]
  rfl

theorem highAt_eq (inner : index + 1 < path.size) :
    path.highAt moving index =
      if path.isFixed moving (index + 1) then (path.anchorX? (index + 1)).getD path.domain
      else path.highAt moving (index + 1) := by
  unfold highAt
  obtain ⟨left, count⟩ : ∃ left, path.size - (index + 1) = left + 1 :=
    ⟨path.size - (index + 2), by omega⟩
  rw [count, List.range'_succ, List.find?_cons]
  have rest : left = path.size - (index + 1 + 1) := by omega
  split
  case h_1 fixed => rw [fixed, if_pos rfl, Option.bind_some]
  case h_2 moves => rw [moves, if_neg Bool.false_ne_true, rest]

theorem anchorX?_eq {segment : Segment α} (found : path.segments[index]? = some segment) :
    path.anchorX? index = some segment.point.x := by
  unfold anchorX?
  rw [found]
  rfl

/-! ### Anchors between their bounds -/

section Between

variable [OrderedScalar α]

/-- Anchors further on are further to the right. -/
theorem Ascending.le {later : Nat} {segment segment' : Segment α} (ascending : path.Ascending)
    (found : path.segments[index]? = some segment)
    (found' : path.segments[later]? = some segment') (less : index < later) :
    segment.point.x ≤ segment'.point.x := by
  obtain ⟨bound, rfl⟩ := List.getElem?_eq_some_iff.mp found
  obtain ⟨bound', rfl⟩ := List.getElem?_eq_some_iff.mp found'
  exact List.pairwise_iff_getElem.mp ascending index later bound bound' less

theorem lowAt_le {segment : Segment α} (ascending : path.Ascending) (pinned : path.Pinned)
    (found : path.segments[index]? = some segment) :
    path.lowAt moving index ≤ segment.point.x := by
  induction index generalizing segment with
  | zero =>
    refine (beq_iff.mp (pinned.first segment ?_)).2
    rwa [List.head?_eq_getElem?]
  | succ index ih =>
    obtain ⟨bound, -⟩ := List.getElem?_eq_some_iff.mp found
    have before := List.getElem?_eq_getElem (show index < path.segments.length by omega)
    have step := ascending.le before found (Nat.lt_succ_self index)
    rw [lowAt_succ]
    split
    · rw [anchorX?_eq before]
      exact step
    · exact le_trans (ih before) step

theorem le_highAt {segment : Segment α} (ascending : path.Ascending) (pinned : path.Pinned)
    (found : path.segments[index]? = some segment) :
    segment.point.x ≤ path.highAt moving index := by
  obtain ⟨bound, -⟩ := List.getElem?_eq_some_iff.mp found
  have length : path.size = path.segments.length := rfl
  -- the induction runs from the last anchor to the left
  induction left : path.size - (index + 1) generalizing index segment with
  | zero =>
    rw [highAt_last (by omega)]
    refine (beq_iff.mp (pinned.last segment ?_)).1
    rw [List.getLast?_eq_getElem?, ← found]
    congr 1
    omega
  | succ left ih =>
    have after := List.getElem?_eq_getElem (show index + 1 < path.segments.length by omega)
    have step := ascending.le found after (Nat.lt_succ_self index)
    rw [highAt_eq (by omega)]
    split
    · rw [anchorX?_eq after]
      exact step
    · exact le_trans step (ih after (by omega) (by omega))

end Between

/-! ### Paths that move -/

/-- The anchors that do not move are where they were, up to a sign of zero. -/
structure StandsStill (moving : SegmentId → Bool) (path other : Path α) : Prop where
  ids : other.ids = path.ids
  domain : other.domain = path.domain
  fixed : ∀ index segment segment', path.isFixed moving index = true →
    path.segments[index]? = some segment → other.segments[index]? = some segment' →
      Alike segment.point.x segment'.point.x

theorem size_eq_of_ids (same : other.ids = path.ids) : other.size = path.size := by
  rw [← length_ids, same, length_ids]

theorem isFixed_of_ids (same : other.ids = path.ids) :
    other.isFixed moving index = path.isFixed moving index := by
  have inIds : ∀ path : Path α, ((path.segments[index]?).any fun segment => !moving segment.id) =
      (path.ids[index]?).any fun id => !moving id := by
    intro path
    unfold Path.ids
    rw [List.getElem?_map]
    cases path.segments[index]? <;> rfl
  unfold isFixed
  rw [inIds, inIds, same, size_eq_of_ids same]

/-- A path with the same identifiers has a segment at every place. -/
theorem getElem?_of_ids {segment : Segment α} (same : other.ids = path.ids)
    (found : path.segments[index]? = some segment) :
    ∃ segment', other.segments[index]? = some segment' ∧ segment'.id = segment.id := by
  have here := id_of_getElem? found
  rw [← same, ids, List.getElem?_map, Option.map_eq_some_iff] at here
  obtain ⟨segment', found', sameId⟩ := here
  exact ⟨segment', found', sameId⟩

/-- A path with the same identifiers has no other places. -/
theorem getElem?_eq_none_of_ids (same : other.ids = path.ids)
    (absent : path.segments[index]? = none) : other.segments[index]? = none := by
  have length : other.segments.length = path.segments.length := size_eq_of_ids same
  rw [List.getElem?_eq_none_iff] at absent ⊢
  rwa [length]

namespace StandsStill

variable [OrderedScalar α]

theorem distinct (still : StandsStill moving path other) (distinct : path.Distinct) :
    other.Distinct := by
  unfold Distinct
  rwa [still.ids]

theorem pinned (still : StandsStill moving path other) (pinned : path.Pinned) : other.Pinned := by
  have length : path.size = path.segments.length := rfl
  have length' : other.size = other.segments.length := rfl
  have sizes := size_eq_of_ids still.ids
  have two := pinned.two
  refine ⟨by rw [sizes]; exact pinned.two, fun segment' found' => ?_, fun segment' found' => ?_⟩
  · rw [List.head?_eq_getElem?] at found'
    have found := List.getElem?_eq_getElem (show 0 < path.segments.length by omega)
    have alike := still.fixed 0 _ _ rfl found found'
    exact beq_iff.mpr (alike.symm.trans (beq_iff.mp (pinned.first _ (by
      rw [List.head?_eq_getElem?, found]))))
  · rw [List.getLast?_eq_getElem?, ← length', sizes] at found'
    have found := List.getElem?_eq_getElem (show path.size - 1 < path.segments.length by omega)
    have isFixed : path.isFixed moving (path.size - 1) = true := by
      unfold isFixed
      rw [show path.size - 1 + 1 = path.size by omega, beq_self_eq_true, Bool.or_true,
        Bool.true_or]
    have alike := still.fixed _ _ _ isFixed found found'
    rw [still.domain]
    have last : path.segments.getLast? = some (path.segments[path.size - 1]) :=
      List.getLast?_eq_getElem?.trans found
    exact beq_iff.mpr (alike.symm.trans (beq_iff.mp (pinned.last _ last)))

theorem lowAt (still : StandsStill moving path other) (inner : index ≤ path.size) :
    Alike (path.lowAt moving index) (other.lowAt moving index) := by
  induction index with
  | zero => exact Alike.refl isNumber_zero
  | succ index ih =>
    have found := List.getElem?_eq_getElem (show index < path.segments.length from inner)
    obtain ⟨segment', found', -⟩ := getElem?_of_ids still.ids found
    rw [lowAt_succ, lowAt_succ, isFixed_of_ids still.ids]
    split
    case isTrue isFixed =>
      rw [anchorX?_eq found, anchorX?_eq found']
      exact still.fixed index _ _ isFixed found found'
    case isFalse => exact ih (by omega)

theorem highAt (still : StandsStill moving path other) (number : IsNumber path.domain) :
    Alike (path.highAt moving index) (other.highAt moving index) := by
  have sizes := size_eq_of_ids still.ids
  have length : path.size = path.segments.length := rfl
  induction left : path.size - (index + 1) generalizing index with
  | zero =>
    rw [highAt_last (by omega), highAt_last (by omega), still.domain]
    exact Alike.refl number
  | succ left ih =>
    have found := List.getElem?_eq_getElem (show index + 1 < path.segments.length by omega)
    obtain ⟨segment', found', -⟩ := getElem?_of_ids still.ids found
    rw [show path.highAt moving index = _ from highAt_eq (by omega),
      show other.highAt moving index = _ from highAt_eq (by omega), isFixed_of_ids still.ids]
    split
    case isTrue isFixed =>
      rw [anchorX?_eq found, anchorX?_eq found']
      exact still.fixed (index + 1) _ _ isFixed found found'
    case isFalse => exact ih (by omega)

end StandsStill

end Path

end Easing
