/-
**Geometry in another unit.**

Multiplying the domain and every coordinate of a path by one positive factor is a change of unit.
What is computed from the path in lengths is multiplied by the factor too; what is decided about it,
and the path over the unit domain, stays the same.

* `Vec.withLength_scale`, `Point.distance_scale`: displacements and distances.
* `clampHandle_scale`, `snapToGrid_scale`: handles held in the domain, points on the grid.
* `Path.scaled`: a path in another unit, and how it is looked at and changed there.
* `Path.normalized_scaled`: over the unit domain there is no unit.
-/
import Mathlib
import Easing.Session.Hit
import Easing.Proofs.Handle
import Easing.Proofs.Reach
import Easing.Proofs.Curve.Acceptance

set_option linter.unusedSectionVars false

namespace Easing

variable {factor : ℝ}

/-! ### Displacements and points -/

namespace Vec

theorem zero_scale (factor : ℝ) : (zero : Vec ℝ).scale factor = zero := by
  unfold zero scale
  simp only [Scalar.zero_real, zero_mul]

theorem length_scale (positive : 0 < factor) (v : Vec ℝ) :
    (v.scale factor).length = v.length * factor := by
  show √(v.x * factor * (v.x * factor) + v.y * factor * (v.y * factor)) =
    √(v.x * v.x + v.y * v.y) * factor
  rw [show v.x * factor * (v.x * factor) + v.y * factor * (v.y * factor) =
      (v.x * v.x + v.y * v.y) * (factor * factor) by ring,
    Real.sqrt_mul' _ (mul_self_nonneg factor), Real.sqrt_mul_self positive.le]

theorem isZero_scale (positive : 0 < factor) (v : Vec ℝ) : (v.scale factor).isZero = v.isZero := by
  rw [Bool.eq_iff_iff, isZero_real, isZero_real]
  unfold scale
  simp only [mul_eq_zero, positive.ne', or_false]

theorem divide_scale (v : Vec ℝ) (divisor : ℝ) :
    (v.scale factor).divide divisor = (v.divide divisor).scale factor := by
  unfold divide scale
  simp only [mul_right_comm]

/-- A direction has no unit. -/
theorem normalize_scale (positive : 0 < factor) (v : Vec ℝ) :
    (v.scale factor).normalize = v.normalize := by
  have same : ∀ a : ℝ, a * factor * (1 / (v.length * factor)) = a * (1 / v.length) := by
    intro a
    rw [mul_one_div, mul_one_div, mul_div_mul_right a v.length positive.ne']
  unfold normalize divide
  rw [length_scale positive, Scalar.one_real]
  unfold scale
  simp only [same]

theorem withLength_scale (positive : 0 < factor) (v : Vec ℝ) (length : ℝ) :
    (v.scale factor).withLength (length * factor) = (v.withLength length).scale factor := by
  unfold withLength
  rw [isZero_scale positive, normalize_scale positive]
  split
  · exact (zero_scale factor).symm
  · unfold scale
    simp only [mul_assoc]

end Vec

namespace Point

theorem scale_add (p : Point ℝ) (v : Vec ℝ) (factor : ℝ) :
    p.scale factor + v.scale factor = (p + v).scale factor :=
  congrArg₂ Point.mk (add_mul _ _ _).symm (add_mul _ _ _).symm

theorem scale_back (p : Point ℝ) (v : Vec ℝ) (factor : ℝ) :
    p.scale factor - v.scale factor = (p - v).scale factor :=
  congrArg₂ Point.mk (sub_mul _ _ _).symm (sub_mul _ _ _).symm

theorem scale_sub (p q : Point ℝ) (factor : ℝ) :
    p.scale factor - q.scale factor = (p - q).scale factor :=
  congrArg₂ Vec.mk (sub_mul _ _ _).symm (sub_mul _ _ _).symm

theorem distance_scale (positive : 0 < factor) (p q : Point ℝ) :
    (p.scale factor).distance (q.scale factor) = p.distance q * factor := by
  unfold distance
  rw [scale_sub, Vec.length_scale positive]

end Point

/-! ### Handles and the grid -/

theorem Knot.handle_scale (knot : Knot ℝ) (side : Side) :
    (knot.scale factor).handle side = (knot.handle side).scale factor := by
  cases side <;> rfl

theorem Knot.scale_injective (positive : 0 < factor) :
    Function.Injective fun knot : Knot ℝ => knot.scale factor := by
  rintro ⟨⟨x, y⟩, ⟨inX, inY⟩, ⟨outX, outY⟩⟩ ⟨⟨x', y'⟩, ⟨inX', inY'⟩, ⟨outX', outY'⟩⟩ same
  simpa only [Knot.scale, Point.scale, Vec.scale, Knot.mk.injEq, Point.mk.injEq, Vec.mk.injEq,
    mul_left_inj' positive.ne'] using same

theorem snapToGrid_scale (positive : 0 < factor) (domain : ℝ) (cells : ℕ) (p : Point ℝ) :
    snapToGrid (domain * factor) cells (p.scale factor) =
      (snapToGrid domain cells p).scale factor := by
  have snapped : ∀ a : ℝ, snapCoordinate (domain * factor) cells (a * factor) =
      snapCoordinate domain cells a * factor := by
    intro a
    unfold snapCoordinate
    rw [mul_div_mul_right a domain positive.ne', mul_assoc]
  have low : domain * factor ≤ 0 ↔ domain ≤ 0 := by
    rw [← mul_le_mul_iff_left₀ positive (b := domain), zero_mul]
  unfold snapToGrid
  simp only [Scalar.zero_real, low]
  split
  · rfl
  · exact congrArg₂ Point.mk (snapped p.x) (snapped p.y)

/-- The sign of a coordinate has no unit. -/
theorem nonneg_scale (positive : 0 < factor) (a : ℝ) : 0 ≤ a * factor ↔ 0 ≤ a := by
  rw [← mul_le_mul_iff_left₀ positive (c := a), zero_mul]

theorem lesser_scale (positive : 0 < factor) (a b : ℝ) :
    Scalar.lesser (a * factor) (b * factor) = Scalar.lesser a b * factor := by
  unfold Scalar.lesser
  simp only [mul_lt_mul_iff_left₀ positive, apply_ite (· * factor)]
  rfl

theorem greater_scale (positive : 0 < factor) (a b : ℝ) :
    Scalar.greater (a * factor) (b * factor) = Scalar.greater a b * factor := by
  unfold Scalar.greater
  simp only [mul_lt_mul_iff_left₀ positive, apply_ite (· * factor)]
  rfl

theorem clampToDomain_scale (positive : 0 < factor) (domain a : ℝ) :
    clampToDomain (domain * factor) (a * factor) =
      (clampToDomain domain a).map (· * factor) := by
  have clamped : Scalar.clamp 0 (domain * factor) (a * factor) =
      Scalar.clamp 0 domain a * factor := by
    unfold Scalar.clamp
    simp only [mul_lt_mul_iff_left₀ positive, ← not_le, nonneg_scale positive, apply_ite (· * factor),
      zero_mul]
  unfold clampToDomain
  simp only [Scalar.zero_real, nonneg_scale positive, clamped]
  split <;> rfl

theorem crossing_scale (positive : 0 < factor) (anchor target : Point ℝ) (limit : ℝ) :
    (⟨anchor.scale factor, target.scale factor⟩ : Line ℝ).crossing
        ⟨⟨limit * factor, -1⟩, ⟨limit * factor, 1⟩⟩ =
      ((⟨anchor, target⟩ : Line ℝ).crossing ⟨⟨limit, -1⟩, ⟨limit, 1⟩⟩).map
        (·.scale factor) := by
  have across : (target.scale factor).x - (anchor.scale factor).x =
      (target.x - anchor.x) * factor := (sub_mul _ _ _).symm
  by_cases upright : target.x - anchor.x = 0
  · rw [crossing_upright limit upright, crossing_upright]
    · rfl
    · rw [across, upright, zero_mul]
  · have slanted : (target.scale factor).x - (anchor.scale factor).x ≠ 0 := by
      rw [across]
      exact mul_ne_zero upright positive.ne'
    rw [crossing_real limit upright, crossing_real (limit * factor) slanted, across]
    refine congrArg some (congrArg (Point.mk (limit * factor)) ?_)
    show anchor.y * factor + (target.y * factor - anchor.y * factor) *
      ((limit * factor - anchor.x * factor) / ((target.x - anchor.x) * factor)) = _
    rw [← sub_mul limit, mul_div_mul_right _ _ positive.ne']
    ring

theorem boundCrossing_scale (positive : 0 < factor) (anchor target : Point ℝ) (domain : ℝ) :
    boundCrossing (anchor.scale factor) (target.scale factor) (domain * factor) =
      (boundCrossing anchor target domain).map (·.scale factor) := by
  have limit : (if domain * factor < target.x * factor then domain * factor else 0) =
      (if domain < target.x then domain else 0) * factor := by
    simp only [mul_lt_mul_iff_left₀ positive, ite_mul, zero_mul]
  unfold boundCrossing
  simp only [Scalar.zero_real, Scalar.one_real, Point.scale_x, limit, crossing_scale positive,
    mul_le_mul_iff_left₀ positive, Option.filter_map]
  split
  · simp only [Function.comp_def, Point.scale_x, mul_le_mul_iff_left₀ positive]
  · simp only [Function.comp_def, Point.scale_x, mul_le_mul_iff_left₀ positive]

theorem clampHandle_scale (positive : 0 < factor) (knot : Knot ℝ) (side : Side)
    (target : Point ℝ) (domain : ℝ) :
    clampHandle (knot.scale factor) side (target.scale factor) (domain * factor) =
      (clampHandle knot side target domain).map (·.scale factor) := by
  have within : 0 ≤ (target.scale factor).x ∧ (target.scale factor).x ≤ domain * factor ↔
      0 ≤ target.x ∧ target.x ≤ domain :=
    and_congr (nonneg_scale positive target.x) (mul_le_mul_iff_left₀ positive)
  unfold clampHandle
  simp only [Scalar.zero_real, within]
  split
  · exact congrArg Except.ok (Point.scale_sub target knot.point factor)
  · rw [show (knot.scale factor).point = knot.point.scale factor from rfl,
      boundCrossing_scale positive]
    cases boundCrossing knot.point target domain with
    | none => exact congrArg Except.ok (knot.handle_scale side)
    | some crossing =>
      show (clampToDomain (domain * factor) (crossing.x * factor)).map _ = _
      rw [clampToDomain_scale positive]
      dsimp only
      cases clampToDomain domain crossing.x with
      | error fault => rfl
      | ok x => exact congrArg Except.ok (Point.scale_sub ⟨x, crossing.y⟩ knot.point factor)

namespace Segment

theorem scaled_scaled (first second : ℝ) (segment : Segment ℝ) :
    (segment.scaled first).scaled second = segment.scaled (first * second) := by
  unfold scaled Knot.scale Point.scale Vec.scale
  simp only [mul_assoc]

theorem setHandle_scaled (segment : Segment ℝ) (side : Side) (handle : Vec ℝ) :
    (segment.scaled factor).setHandle side (handle.scale factor) =
      (segment.setHandle side handle).scaled factor := by
  cases side <;> rfl

theorem flatten_scaled (segment : Segment ℝ) :
    (segment.scaled factor).flatten = segment.flatten.scaled factor := by
  unfold flatten scaled Knot.scale
  simp only [Vec.zero_scale]

end Segment

theorem mirrorHandle_scaled (positive : 0 < factor) (segment : Segment ℝ) (leader : Side)
    (domain : ℝ) :
    mirrorHandle (segment.scaled factor) leader (domain * factor) =
      (mirrorHandle segment leader domain).map (Segment.scaled factor) := by
  have target : (segment.scaled factor).point - (segment.scaled factor).handle leader =
      (segment.point - segment.handle leader).scale factor := by
    rw [show (segment.scaled factor).toKnot = segment.toKnot.scale factor from rfl,
      Knot.handle_scale]
    exact Point.scale_back segment.point (segment.handle leader) factor
  unfold mirrorHandle
  dsimp only
  rw [target, show (segment.scaled factor).toKnot = segment.toKnot.scale factor from rfl,
    clampHandle_scale positive]
  cases clampHandle segment.toKnot leader.opposite (segment.point - segment.handle leader)
    domain with
  | error fault => rfl
  | ok handle => exact congrArg Except.ok (segment.setHandle_scaled leader.opposite handle)

/-! ### Paths -/

namespace Path

/-- A path in another unit. -/
noncomputable def scaled (factor : ℝ) (path : Path ℝ) : Path ℝ :=
  ⟨path.segments.map (Segment.scaled factor), path.domain * factor⟩

theorem knots_scaled (path : Path ℝ) :
    (path.scaled factor).knots = path.knots.map (·.scale factor) := by
  unfold knots scaled
  rw [List.map_map, List.map_map]
  rfl

theorem find?_scaled (path : Path ℝ) (id : SegmentId) :
    (path.scaled factor).find? id = (path.find? id).map (Segment.scaled factor) := by
  unfold find? scaled
  rw [List.find?_map]
  rfl

theorem index?_scaled (path : Path ℝ) (id : SegmentId) :
    (path.scaled factor).index? id = path.index? id := by
  unfold index? scaled
  rw [List.findIdx?_map]
  rfl

theorem isFirst_scaled (path : Path ℝ) (id : SegmentId) :
    (path.scaled factor).isFirst id = path.isFirst id := by
  unfold isFirst scaled
  rw [List.head?_map, Option.any_map]
  rfl

theorem isLast_scaled (path : Path ℝ) (id : SegmentId) :
    (path.scaled factor).isLast id = path.isLast id := by
  unfold isLast scaled
  rw [List.getLast?_map, Option.any_map]
  rfl

theorem isEndpoint_scaled (path : Path ℝ) (id : SegmentId) :
    (path.scaled factor).isEndpoint id = path.isEndpoint id := by
  unfold isEndpoint
  rw [isFirst_scaled, isLast_scaled]

theorem previous?_scaled (path : Path ℝ) (id : SegmentId) :
    (path.scaled factor).previous? id = (path.previous? id).map (Segment.scaled factor) := by
  unfold previous?
  rw [index?_scaled]
  cases path.index? id with
  | none => rfl
  | some index =>
    cases index with
    | zero => rfl
    | succ index => exact List.getElem?_map

theorem next?_scaled (path : Path ℝ) (id : SegmentId) :
    (path.scaled factor).next? id = (path.next? id).map (Segment.scaled factor) := by
  unfold next?
  rw [index?_scaled]
  cases path.index? id with
  | none => rfl
  | some index => exact List.getElem?_map

theorem modifyFirst_scaled {change changed : Segment ℝ → Segment ℝ} (id : SegmentId)
    (agree : ∀ segment, changed (segment.scaled factor) = (change segment).scaled factor)
    (segments : List (Segment ℝ)) :
    modifyFirst id changed (segments.map (Segment.scaled factor)) =
      (modifyFirst id change segments).map (Segment.scaled factor) := by
  induction segments with
  | nil => rfl
  | cons segment rest ih =>
    rw [List.map_cons, modifyFirst, modifyFirst, ih, agree,
      show (segment.scaled factor).id = segment.id from rfl]
    split <;> rfl

theorem modify_scaled {change changed : Segment ℝ → Segment ℝ} (path : Path ℝ) (id : SegmentId)
    (agree : ∀ segment, changed (segment.scaled factor) = (change segment).scaled factor) :
    (path.scaled factor).modify id changed = (path.modify id change).scaled factor := by
  unfold modify scaled
  rw [modifyFirst_scaled id agree]

theorem remove?_scaled (path : Path ℝ) (id : SegmentId) :
    (path.scaled factor).remove? id = (path.remove? id).map (scaled factor) := by
  unfold remove?
  rw [isEndpoint_scaled, index?_scaled]
  split
  · rfl
  · cases path.index? id with
    | none => rfl
    | some index =>
      unfold scaled
      simp only [Option.map_some, List.eraseIdx_map]

theorem nearestLeft_scaled (positive : 0 < factor) (x : ℝ) (segments : List (Segment ℝ))
    (index best : ℕ) (distance : ℝ) :
    nearestLeft (x * factor) (segments.map (Segment.scaled factor)) index best
        (distance * factor) =
      nearestLeft x segments index best distance := by
  induction segments generalizing index best distance with
  | nil => rfl
  | cons segment rest ih =>
    have gap : x * factor - (segment.scaled factor).point.x = (x - segment.point.x) * factor :=
      (sub_mul _ _ _).symm
    rw [List.map_cons, nearestLeft, nearestLeft, gap]
    simp only [Scalar.zero_real, mul_lt_mul_iff_left₀ positive, mul_pos_iff_of_pos_right positive,
      ih]

theorem insertionIndex_scaled (positive : 0 < factor) (first : Segment ℝ)
    (segments : List (Segment ℝ)) (x : ℝ) :
    insertionIndex (first.scaled factor) (segments.map (Segment.scaled factor)) (x * factor) =
      insertionIndex first segments x := by
  have gap : x * factor - (first.scaled factor).point.x = (x - first.point.x) * factor :=
    (sub_mul _ _ _).symm
  unfold insertionIndex
  rw [gap, nearestLeft_scaled positive]

/-- An anchor inserted into a path in another unit. -/
theorem insert_scaled (positive : 0 < factor) (path : Path ℝ) (supply : IdSupply)
    (point : Point ℝ) :
    (path.scaled factor).insert supply (point.scale factor) =
      (path.insert supply point).map fun (id, inserted, supply) =>
        (id, inserted.scaled factor, supply) := by
  obtain ⟨segments, domain⟩ := path
  cases segments with
  | nil => rfl
  | cons first rest =>
    have corner : Knot.corner (point.scale factor) = (Knot.corner point).scale factor := by
      unfold Knot.corner Knot.scale
      rw [Vec.zero_scale]
    have index : insertionIndex (first.scaled factor)
        (first.scaled factor :: rest.map (Segment.scaled factor)) (point.scale factor).x =
        insertionIndex first (first :: rest) point.x :=
      insertionIndex_scaled positive first (first :: rest) point.x
    unfold insert scaled
    simp only [List.map_cons, index, corner, Except.map]
    rw [← List.map_cons, List.map_insertIdx]
    rfl

theorem anchorX?_scaled (path : Path ℝ) (index : ℕ) :
    (path.scaled factor).anchorX? index = (path.anchorX? index).map (· * factor) := by
  unfold anchorX? scaled
  simp only [List.getElem?_map, Option.map_map]
  rfl

theorem isFixed_scaled (path : Path ℝ) (moving : SegmentId → Bool) :
    (path.scaled factor).isFixed moving = path.isFixed moving := by
  funext index
  unfold isFixed size scaled
  simp only [List.getElem?_map, List.length_map, Option.any_map]
  rfl

theorem bounds?_scaled (path : Path ℝ) (id : SegmentId) (moving : SegmentId → Bool) :
    (path.scaled factor).bounds? id moving =
      (path.bounds? id moving).map (Prod.map (· * factor) (· * factor)) := by
  have size : (path.scaled factor).size = path.size := List.length_map _
  have bound : ∀ (place : Option ℕ) (other : ℝ),
      (place.bind (path.scaled factor).anchorX?).getD (other * factor) =
        (place.bind path.anchorX?).getD other * factor := by
    intro place other
    cases place with
    | none => rfl
    | some index =>
      show ((path.scaled factor).anchorX? index).getD _ = (path.anchorX? index).getD other * _
      rw [anchorX?_scaled, Option.getD_map]
  -- where no anchor is fixed on the left, the bound is zero in every unit
  have low : ∀ place : Option ℕ, (place.bind (path.scaled factor).anchorX?).getD 0 =
      (place.bind path.anchorX?).getD 0 * factor := by
    intro place
    rw [← bound, zero_mul]
  unfold bounds?
  rw [index?_scaled, isFixed_scaled, size, Option.map_map]
  simp only [Scalar.zero_real]
  exact congrArg (Option.map · _) (funext fun index => Prod.ext (low _) (bound _ path.domain))

/-! ### Looking for the nearest point -/

theorem candidates_scaled (positive : 0 < factor) (segment : Segment ℝ) :
    candidates (segment.scaled factor) = (candidates segment).map (·.scale factor) := by
  have knot : (segment.scaled factor).toKnot = segment.toKnot.scale factor := rfl
  unfold candidates
  rw [knot, Knot.handlePoint_scale, Knot.handlePoint_scale]
  simp only [Knot.scale, Vec.isZero_scale positive, List.map_append, List.map_cons, List.map_nil,
    apply_ite (List.map _)]

theorem nearer_scaled (positive : 0 < factor) (target : Point ℝ) (best : Point ℝ × ℝ)
    (point : Point ℝ) :
    nearer (target.scale factor) (best.1.scale factor, best.2 * factor) (point.scale factor) =
      ((nearer target best point).1.scale factor, (nearer target best point).2 * factor) := by
  unfold nearer
  simp only [Point.distance_scale positive, mul_lt_mul_iff_left₀ positive]
  split <;> rfl

theorem foldl_nearer_scaled (positive : 0 < factor) (target : Point ℝ) (points : List (Point ℝ))
    (best : Point ℝ × ℝ) :
    (points.map (·.scale factor)).foldl (nearer (target.scale factor))
        (best.1.scale factor, best.2 * factor) =
      ((points.foldl (nearer target) best).1.scale factor,
        (points.foldl (nearer target) best).2 * factor) := by
  induction points generalizing best with
  | nil => rfl
  | cons point rest ih =>
    rw [List.map_cons, List.foldl_cons, List.foldl_cons, nearer_scaled positive, ih]

theorem nearest?_scaled (positive : 0 < factor) (path : Path ℝ) (target : Point ℝ)
    (threshold : ℝ) :
    (path.scaled factor).nearest? (target.scale factor) (threshold * factor) =
      (path.nearest? target threshold).map (·.scale factor) := by
  have all : (path.scaled factor).segments.flatMap candidates =
      (path.segments.flatMap candidates).map (·.scale factor) := by
    unfold scaled
    rw [List.flatMap_map, List.map_flatMap]
    exact congrArg (List.flatMap · _) (funext fun segment => candidates_scaled positive segment)
  unfold nearest?
  rw [all]
  cases path.segments.flatMap candidates with
  | nil => rfl
  | cons seed rest =>
    rw [List.map_cons]
    dsimp only
    rw [Point.distance_scale positive, foldl_nearer_scaled positive target rest (seed, _)]
    simp only [mul_lt_mul_iff_left₀ positive]
    split <;> rfl

/-! ### The unit domain -/

theorem normalized_domain (path : Path ℝ) : path.normalized.domain = 1 := by
  unfold normalized
  split
  case isTrue unit => exact (beq_iff_eq.mp unit).trans Scalar.one_real
  case isFalse => exact Scalar.one_real

/-- **Over the unit domain there is no unit.** -/
theorem normalized_scaled (positive : 0 < factor) (path : Path ℝ) :
    (path.scaled factor).normalized = path.normalized := by
  have segments : (path.scaled factor).normalized.segments = path.normalized.segments := by
    rw [normalized_segments, normalized_segments]
    unfold scaled
    rw [List.map_map]
    refine congrArg (List.map · _) (funext fun segment => ?_)
    show (segment.scaled factor).scaled (1 / (path.domain * factor)) = _
    rw [Segment.scaled_scaled]
    congr 1
    rw [mul_one_div, mul_comm path.domain, div_mul_cancel_left₀ positive.ne', one_div]
  have domain := path.normalized_domain.trans (path.scaled factor).normalized_domain.symm
  generalize path.normalized = unit, (path.scaled factor).normalized = other at segments domain
  obtain ⟨_, _⟩ := unit
  obtain ⟨_, _⟩ := other
  exact congrArg₂ Path.mk segments domain.symm

end Path

end Easing
