/-
**A compiled joint and its Bézier curve.**

A joint is solved in the unit square: its handles are seen from the rectangle between its anchors,
and what the unit cubic gives is stretched over that rectangle again. Read over the reals, the way
there and back is the identity on the Bézier curve of the joint, wherever anchors and handles are.

* `Branch.Joins`, `buildCurve_joins`: the branches of a curve are those of the joints of its path,
  in order; a line has the slope of its joint, and a solver its control points.
* `bernstein_eq_value`: a cubic over an interval is a unit cubic, stretched.
* `UnitCubic.eval_onCurve`: what a unit cubic evaluates to lies on it, at the parameter that was
  found.
* `buildCurve_traces_bezier`: both coordinates of every joint. The rectangle of a joint between
  anchors of one height is flat: nothing of a handle's y is left there, and the joint is level.
-/
import Mathlib
import Easing.Proofs.Curve.Sharing
import Easing.Proofs.Scalar.Exact

set_option linter.unusedSectionVars false

namespace Easing

/-! ### Branches of joints -/

section Joins

variable {α : Type} [Scalar α] [LawfulSame α]

/-- The branch is that of the joint between two knots. -/
structure Branch.Joins (left right : Knot α) (branch : Branch α) : Prop where
  forward : isBackward left.point.x right.point.x = false
  start : branch.start = left.point
  stop : branch.stop = right.point
  slope : ∀ slope, branch.shape = .line slope →
    slope = (right.point.y - left.point.y) / (right.point.x - left.point.x)
  controls : ∀ shared, branch.shape = .cubic shared →
    shared.solver.toControls = jointControls left right

/-- A pool gives the solver that it is asked for. -/
theorem SolverPool.get_toControls {pool : SolverPool α} {c : Controls α}
    {result : SharedSolver α × SolverPool α} (ok : pool.get c = .ok result) :
    result.1.solver.toControls = c := by
  have built := pool.get_anonymous c
  rw [ok] at built
  unfold UnitCubic.ofControls at built
  split at built
  · split at built
    · exact congrArg (·.solver.toControls) (Except.ok.inj built)
    · cases built
  · cases built

theorem buildBranch_joins {pool : SolverPool α} {index : Nat} {left right : Knot α}
    {result : Branch α × SolverPool α} (ok : buildBranch pool index left right = .ok result) :
    result.1.Joins left right := by
  unfold buildBranch at ok
  split at ok
  next => cases ok
  next backward =>
    rw [Bool.not_eq_true] at backward
    split at ok
    · cases ok
      refine ⟨backward, rfl, rfl, ?_, nofun⟩
      intro slope line
      cases line
      rfl
    · cases got : pool.get (jointControls left right) with
      | error error =>
        rw [got] at ok
        cases ok
      | ok solved =>
        rw [got] at ok
        cases ok
        refine ⟨backward, rfl, rfl, nofun, ?_⟩
        intro shared cubic
        cases cubic
        exact SolverPool.get_toControls got

/-- Every joint has its branch, in order. -/
theorem buildBranches_joins {pool : SolverPool α} {index : Nat}
    {joints : List (Segment α × Segment α)} {branches : List (Branch α)}
    (ok : (buildBranches pool index joints).1 = .ok branches) :
    List.Forall₂ (fun joint branch => branch.Joins joint.1.toKnot joint.2.toKnot)
      joints branches := by
  induction joints generalizing pool index branches with
  | nil =>
    cases ok
    exact .nil
  | cons joint rest ih =>
    obtain ⟨left, right⟩ := joint
    unfold buildBranches at ok
    cases first : buildBranch pool index left.toKnot right.toKnot with
    | error error =>
      rw [first] at ok
      cases ok
    | ok result =>
      rw [first] at ok
      replace ok : (buildBranches result.2 (index + 1) rest).1.map (result.1 :: ·) =
        .ok branches := ok
      cases later : (buildBranches result.2 (index + 1) rest).1 with
      | error error =>
        rw [later] at ok
        cases ok
      | ok tail =>
        rw [later] at ok
        cases ok
        exact .cons (buildBranch_joins first) (ih later)

theorem eq_of_checked {branches : List (Branch α)} {curve : Curve α}
    (ok : checked branches = .ok curve) : curve = ⟨branches⟩ := by
  unfold checked at ok
  split at ok
  · cases ok
  · exact (Except.ok.inj ok).symm

/-- A path that compiles has two anchors. -/
theorem buildCurve_two {pool : SolverPool α} {path : Path α} {curve : Curve α}
    (built : (buildCurve pool path).1 = .ok curve) :
    2 ≤ path.normalized.size := by
  rw [buildCurve_eq] at built
  unfold pathBranches at built
  split at built
  next => cases built
  next large => exact Nat.le_of_not_lt large

/-- **The branches of a curve are those of the joints of its path.** -/
theorem buildCurve_joins {pool : SolverPool α} {path : Path α} {curve : Curve α}
    (built : (buildCurve pool path).1 = .ok curve) :
    List.Forall₂ (fun joint branch => branch.Joins joint.1.toKnot joint.2.toKnot)
      path.normalized.joints curve.branches := by
  rw [buildCurve_eq] at built
  unfold pathBranches at built
  split at built
  · cases built
  · cases ok : (buildBranches pool 0 path.normalized.joints).1 with
    | error error =>
      rw [ok] at built
      cases built
    | ok branches =>
      rw [ok] at built
      rw [eq_of_checked built]
      exact buildBranches_joins ok

/-- Every branch is that of a joint. -/
theorem exists_joint {pool : SolverPool α} {path : Path α} {curve : Curve α}
    (built : (buildCurve pool path).1 = .ok curve) {branch : Branch α}
    (member : branch ∈ curve.branches) :
    ∃ joint ∈ path.normalized.joints, branch.Joins joint.1.toKnot joint.2.toKnot := by
  obtain ⟨sameLength, joins⟩ := List.forall₂_iff_get.mp (buildCurve_joins built)
  obtain ⟨index, inBranches, rfl⟩ := List.mem_iff_getElem.mp member
  have inJoints : index < path.normalized.joints.length := sameLength ▸ inBranches
  exact ⟨_, List.getElem_mem inJoints, joins index inJoints inBranches⟩

/-- A curve that was built has a joint. -/
theorem branches_ne_nil {pool : SolverPool α} {path : Path α} {curve : Curve α}
    (built : (buildCurve pool path).1 = .ok curve) : curve.branches ≠ [] := by
  intro none
  have sameLength := (buildCurve_joins built).length_eq
  have two := buildCurve_two built
  unfold Path.size at two
  rw [none] at sameLength
  unfold Path.joints at sameLength
  generalize path.normalized.segments = segments at sameLength two
  match segments with
  | [] => exact absurd two (Nat.not_succ_le_zero 1)
  | [_] => exact absurd two (Nat.not_succ_le_self 1)
  | _ :: _ :: _ => cases sameLength

/-- The numbers of a curve that was built are finite. -/
theorem isFinite_of_built {pool : SolverPool α} {path : Path α} {curve : Curve α}
    (built : (buildCurve pool path).1 = .ok curve) {branch : Branch α}
    (member : branch ∈ curve.branches) : branch.isFinite = true := by
  have checks : checked curve.branches = .ok curve := by
    rw [buildCurve_eq] at built
    cases ok : (pathBranches pool path.normalized).1 with
    | error error =>
      rw [ok] at built
      cases built
    | ok branches =>
      rw [ok] at built
      obtain rfl := eq_of_checked built
      exact built
  unfold checked Curve.defect? at checks
  dsimp only at checks
  cases found : curve.branches.find? fun branch => !branch.isFinite with
  | some other =>
    rw [found] at checks
    cases checks
  | none =>
    have finite := List.find?_eq_none.mp found branch member
    rwa [Bool.not_eq_true', Bool.not_eq_false] at finite

end Joins

instance : LawfulSame ℝ where
  eq_of_same same := eq_of_beq same

/-! ### The Bézier curve of a joint -/

/-- The cubic Bernstein polynomial with the given coefficients. -/
noncomputable def bernstein (s a b c d : ℝ) : ℝ :=
  (1 - s) ^ 3 * a + 3 * s * (1 - s) ^ 2 * b + 3 * s ^ 2 * (1 - s) * c + s ^ 3 * d

/-- The Bézier curve from `left` to `right`, at a parameter: the control points are the anchors and
the ends of the two handles between them. -/
noncomputable def bezier (left right : Knot ℝ) (s : ℝ) : Point ℝ where
  x := bernstein s left.point.x (left.point.x + left.handleOut.x)
    (right.point.x + right.handleIn.x) right.point.x
  y := bernstein s left.point.y (left.point.y + left.handleOut.y)
    (right.point.y + right.handleIn.y) right.point.y

/-- A cubic over `[a, d]` is a unit cubic, stretched. -/
theorem bernstein_eq_value {a d : ℝ} (b c s : ℝ) (wide : a ≠ d) :
    a + (d - a) * Cubic.value s (remap b a d 0 1) (remap c a d 0 1) = bernstein s a b c d := by
  have span : d - a ≠ 0 := sub_ne_zero.mpr wide.symm
  unfold bernstein
  rw [remap_real wide, remap_real wide, Cubic.value_real]
  field_simp
  ring

/-- A cubic that ends where it begins stays there if and only if its handles have no length. -/
theorem bernstein_level_iff (a b c : ℝ) :
    (∀ s, 0 ≤ s → s ≤ 1 → a = bernstein s a (a + b) (a + c) a) ↔ b = 0 ∧ c = 0 := by
  unfold bernstein
  constructor
  · intro level
    have third := level (1 / 3) (by norm_num) (by norm_num)
    have twoThirds := level (2 / 3) (by norm_num) (by norm_num)
    constructor <;> linarith
  · rintro ⟨rfl, rfl⟩ s - -
    ring

/-- **What a unit cubic evaluates to lies on it**, at the parameter that was searched for or at one
whose x is exact. -/
theorem UnitCubic.eval_onCurve (cubic : UnitCubic ℝ) {u : ℝ} (low : 0 ≤ u) (high : u ≤ 1) :
    ∃ s, cubic.eval u = cubic.yAt s ∧ (cubic.xAt s = u ∨ s = cubic.solve u) := by
  unfold eval
  split
  next identity =>
    obtain ⟨x, y⟩ := Bool.and_eq_true_iff.mp identity
    obtain ⟨s, reached⟩ := Cubic.exists_value_eq cubic.x1 cubic.x2 low high
    refine ⟨s, ?_, .inl reached⟩
    unfold yAt
    rw [← beq_iff_eq.mp x, ← beq_iff_eq.mp y, reached]
  next =>
    split
    next isEnd =>
      rw [Bool.or_eq_true, beq_iff_eq, beq_iff_eq, Scalar.zero_real, Scalar.one_real] at isEnd
      refine ⟨u, ?_, .inl ?_⟩
      · unfold yAt
        rcases isEnd with rfl | rfl
        · exact (Cubic.value_zero _ _).symm
        · exact (Cubic.value_one _ _).symm
      · unfold xAt
        rcases isEnd with rfl | rfl
        · exact Cubic.value_zero _ _
        · exact Cubic.value_one _ _
    next => exact ⟨cubic.solve u, rfl, .inr rfl⟩

/-- The ends of a unit cubic are exact. -/
@[simp] theorem UnitCubic.eval_zero (cubic : UnitCubic ℝ) : cubic.eval 0 = 0 := by
  unfold eval
  simp

@[simp] theorem UnitCubic.eval_one (cubic : UnitCubic ℝ) : cubic.eval 1 = 1 := by
  unfold eval
  simp

/-! ### There and back -/

theorem jointControls_real (left right : Knot ℝ) :
    jointControls left right =
      { x1 := remap (left.point.x + left.handleOut.x) left.point.x right.point.x 0 1
        y1 := remap (left.point.y + left.handleOut.y) left.point.y right.point.y 0 1
        x2 := remap (right.point.x + right.handleIn.x) left.point.x right.point.x 0 1
        y2 := remap (right.point.y + right.handleIn.y) left.point.y right.point.y 0 1 } := by
  unfold jointControls
  simp only [Scalar.zero_real, Scalar.one_real]
  rfl

namespace Branch

/-- The branch has the height of each of its anchors there. -/
structure Meets (branch : Branch ℝ) : Prop where
  start : branch.eval branch.start.x = branch.start.y
  stop : branch.eval branch.stop.x = branch.stop.y

section Cubic

variable {left right : Knot ℝ} {branch : Branch ℝ} {shared : SharedSolver ℝ}

/-- A joint leads to a greater x. -/
theorem Joins.x_lt (joins : branch.Joins left right) : left.point.x < right.point.x := by
  have forward := joins.forward
  unfold isBackward at forward
  rw [Bool.or_eq_false_iff, Bool.or_eq_false_iff, decide_eq_false_iff_not, not_le] at forward
  exact forward.1.1

theorem Joins.x_ne (joins : branch.Joins left right) : left.point.x ≠ right.point.x :=
  joins.x_lt.ne

theorem Joins.x_eq (joins : branch.Joins left right) (cubic : branch.shape = .cubic shared)
    (s : ℝ) : left.point.x + (right.point.x - left.point.x) * shared.solver.xAt s =
      (bezier left right s).x := by
  have controls := joins.controls shared cubic
  unfold UnitCubic.xAt
  rw [controls, jointControls_real]
  exact bernstein_eq_value _ _ s joins.x_ne

theorem Joins.y_eq (joins : branch.Joins left right) (cubic : branch.shape = .cubic shared)
    (slanted : left.point.y ≠ right.point.y) (s : ℝ) :
    remap (shared.solver.yAt s) 0 1 left.point.y right.point.y = (bezier left right s).y := by
  have controls := joins.controls shared cubic
  unfold UnitCubic.yAt
  rw [remap_unit, controls, jointControls_real]
  exact bernstein_eq_value _ _ s slanted

/-- The value of a curved joint, by the parameter of its solver. -/
theorem Joins.eval_eq (joins : branch.Joins left right) (cubic : branch.shape = .cubic shared)
    (t : ℝ) : branch.eval t =
      remap (shared.solver.eval ((t - left.point.x) / (right.point.x - left.point.x))) 0 1
        left.point.y right.point.y := by
  unfold eval
  rw [cubic, joins.start, joins.stop]
  simp only [Scalar.zero_real, Scalar.one_real]

/-- A joint has the height of each of its anchors there, be it straight or curved. -/
theorem Joins.meets (joins : branch.Joins left right) : branch.Meets := by
  have width : right.point.x - left.point.x ≠ 0 := sub_ne_zero.mpr joins.x_ne.symm
  cases shape : branch.shape with
  | line slope =>
    have value : ∀ t, branch.eval t = slope * (t - left.point.x) + left.point.y := by
      intro t
      unfold eval
      rw [shape, joins.start]
    constructor
    · rw [value, joins.start, sub_self, mul_zero, zero_add]
    · rw [value, joins.stop, joins.slope slope shape, div_mul_cancel₀ _ width, sub_add_cancel]
  | cubic shared =>
    constructor
    · rw [joins.eval_eq shape, joins.start, sub_self, zero_div, UnitCubic.eval_zero, remap_unit,
        mul_zero, add_zero]
    · rw [joins.eval_eq shape, joins.stop, div_self width, UnitCubic.eval_one, remap_unit, mul_one,
        add_sub_cancel]

/-- The values of a curved joint are on its Bézier curve. -/
theorem Joins.eval_onBezier (joins : branch.Joins left right)
    (cubic : branch.shape = .cubic shared) (slanted : left.point.y ≠ right.point.y) {t : ℝ}
    (low : left.point.x ≤ t) (high : t ≤ right.point.x) :
    ∃ s, branch.eval t = (bezier left right s).y ∧
      ((bezier left right s).x = t ∨
        s = shared.solver.solve ((t - left.point.x) / (right.point.x - left.point.x))) := by
  have width : 0 < right.point.x - left.point.x :=
    sub_pos.mpr ((low.trans high).lt_of_ne joins.x_ne)
  obtain ⟨s, value, found⟩ := shared.solver.eval_onCurve
    (div_nonneg (sub_nonneg.mpr low) width.le)
    ((div_le_one width).mpr (sub_le_sub_right high _))
  refine ⟨s, ?_, ?_⟩
  · rw [joins.eval_eq cubic, value]
    exact joins.y_eq cubic slanted s
  · rcases found with exact_x | searched
    · left
      rw [← joins.x_eq cubic, exact_x, mul_div_cancel₀ _ width.ne']
      ring
    · exact .inr searched

end Cubic

end Branch

/-! ### Paths of one joint -/

/-- The path of one joint, over the unit domain. -/
def Path.oneJoint (left right : Knot ℝ) : Path ℝ :=
  ⟨[{ left with id := ⟨0⟩ }, { right with id := ⟨1⟩ }], 1⟩

theorem Path.normalized_oneJoint (left right : Knot ℝ) :
    (oneJoint left right).normalized = oneJoint left right := by
  unfold normalized
  rw [if_pos]
  exact beq_iff_eq.mpr Scalar.one_real.symm

theorem Path.joints_oneJoint (left right : Knot ℝ) :
    (oneJoint left right).normalized.joints[0]? =
      some ({ left with id := ⟨0⟩ }, { right with id := ⟨1⟩ }) := by
  rw [normalized_oneJoint]
  rfl

/-- Exactly the positions between two others are in the unit interval when seen from these. -/
theorem inUnit_remap_iff {a low high : ℝ} (forward : low < high) :
    InUnit (remap a low high 0 1) ↔ a ∈ Set.Icc low high := by
  have width : 0 < high - low := sub_pos.mpr forward
  have seen : remap a low high 0 1 = (a - low) / (high - low) := by
    rw [remap_real forward.ne]
    ring
  unfold InUnit
  rw [seen, Scalar.zero_real, Scalar.one_real, div_le_one width, le_div_iff₀ width, zero_mul,
    sub_nonneg, sub_le_sub_iff_right, Set.mem_Icc]

/-- Over the reals a path compiles when its joints do. -/
theorem buildCurve_real {pool : SolverPool ℝ} {path : Path ℝ} {branches : List (Branch ℝ)}
    (ok : (pathBranches pool path.normalized).1 = .ok branches) :
    (buildCurve pool path).1 = .ok ⟨branches⟩ := by
  rw [buildCurve_eq, ok]
  show checked branches = _
  unfold checked
  rw [Curve.defect?_real]

/-- The joint compiles when both its handles stay between the anchors. -/
theorem buildCurve_oneJoint (left right : Knot ℝ) (out : 0 < left.handleOut.x)
    (outEnd : left.point.x + left.handleOut.x ≤ right.point.x) (back : right.handleIn.x ≤ 0)
    (backEnd : left.point.x ≤ right.point.x + right.handleIn.x) :
    ∃ shared, (buildCurve SolverPool.empty (Path.oneJoint left right)).1 =
      .ok ⟨[.cubic left.point right.point shared]⟩ := by
  have forward : left.point.x < right.point.x := by linarith
  have x1 : InUnit (jointControls left right).x1 := by
    rw [jointControls_real]
    exact (inUnit_remap_iff forward).mpr ⟨by linarith, outEnd⟩
  have x2 : InUnit (jointControls left right).x2 := by
    rw [jointControls_real]
    exact (inUnit_remap_iff forward).mpr ⟨backEnd, by linarith⟩
  have notBackward : ¬isBackward left.point.x right.point.x = true := by
    unfold isBackward
    rw [Bool.or_eq_true, Bool.or_eq_true, decide_eq_true_eq, not_or, not_or, not_le]
    exact ⟨⟨forward, Bool.false_ne_true⟩, Bool.false_ne_true⟩
  have notStraight : ¬(left.handleOut.isZero && right.handleIn.isZero) = true := by
    rw [Bool.and_eq_true, Vec.isZero_real]
    exact fun straight => out.ne' straight.1.1
  have solver : (SolverPool.empty : SolverPool ℝ).get (jointControls left right) =
      .ok (SolverPool.empty.add ⟨jointControls left right, x1, x2⟩) := by
    show (UnitCubic.ofControls _).map _ = _
    unfold UnitCubic.ofControls
    rw [dif_pos x1, dif_pos x2]
    rfl
  have branches : (pathBranches SolverPool.empty (Path.oneJoint left right).normalized).1 =
      .ok [.cubic left.point right.point ⟨⟨jointControls left right, x1, x2⟩, 0⟩] := by
    rw [Path.normalized_oneJoint]
    show (buildBranches SolverPool.empty 0 [(_, _)]).1 = _
    unfold buildBranches buildBranch
    rw [if_neg notBackward, if_neg notStraight, solver]
    rfl
  refine ⟨⟨⟨jointControls left right, x1, x2⟩, 0⟩, ?_⟩
  exact buildCurve_real branches

/-! ### The curve that is traced -/

/-- **A compiled joint traces its Bézier curve.** Every joint of a path that compiles has its branch.
Where the branch is curved, stretching the curve of its solver over the rectangle between the
anchors gives the x of the Bézier curve at every parameter, and its y too unless the anchors are of
one height; what the branch evaluates to is then on the Bézier curve, at the parameter that the
solver found. Between anchors of one height the branch is level, which is the Bézier curve only
where the handles are level. -/
theorem buildCurve_traces_bezier {pool : SolverPool ℝ} {path : Path ℝ} {curve : Curve ℝ}
    (built : (buildCurve pool path).1 = .ok curve) {index : Nat} {left right : Segment ℝ}
    (joint : path.normalized.joints[index]? = some (left, right)) :
    ∃ branch, curve.branches[index]? = some branch ∧
      branch.start = left.point ∧ branch.stop = right.point ∧
      ∀ shared, branch.shape = .cubic shared →
        (∀ s, left.point.x + (right.point.x - left.point.x) *
            Cubic.value s shared.solver.x1 shared.solver.x2 =
          (bezier left.toKnot right.toKnot s).x) ∧
        (left.point.y ≠ right.point.y →
          (∀ s, remap (Cubic.value s shared.solver.y1 shared.solver.y2) 0 1
              left.point.y right.point.y =
            (bezier left.toKnot right.toKnot s).y) ∧
          ∀ t, left.point.x ≤ t → t ≤ right.point.x →
            ∃ s, branch.eval t = (bezier left.toKnot right.toKnot s).y ∧
              ((bezier left.toKnot right.toKnot s).x = t ∨
                s = shared.solver.solve
                  ((t - left.point.x) / (right.point.x - left.point.x)))) ∧
        (left.point.y = right.point.y →
          (∀ s, remap (Cubic.value s shared.solver.y1 shared.solver.y2) 0 1
              left.point.y right.point.y = left.point.y) ∧
          (∀ t, branch.eval t = left.point.y) ∧
          ((∀ s, 0 ≤ s → s ≤ 1 →
            remap (Cubic.value s shared.solver.y1 shared.solver.y2) 0 1
                left.point.y right.point.y =
              (bezier left.toKnot right.toKnot s).y) ↔
            left.handleOut.y = 0 ∧ right.handleIn.y = 0)) := by
  obtain ⟨sameLength, joins⟩ := List.forall₂_iff_get.mp (buildCurve_joins built)
  obtain ⟨inJoints, isJoint⟩ := List.getElem?_eq_some_iff.mp joint
  have inBranches : index < curve.branches.length := sameLength ▸ inJoints
  replace joins := joins index inJoints inBranches
  rw [List.get_eq_getElem, List.get_eq_getElem, isJoint] at joins
  refine ⟨curve.branches[index], List.getElem?_eq_getElem inBranches, joins.start, joins.stop, ?_⟩
  intro shared cubic
  refine ⟨joins.x_eq cubic, ?_, ?_⟩
  · intro slanted
    exact ⟨joins.y_eq cubic slanted, fun t low high => joins.eval_onBezier cubic slanted low high⟩
  · intro level
    have flat : ∀ a, remap a 0 1 left.point.y right.point.y = left.point.y := by
      intro a
      rw [remap_unit, level]
      ring
    refine ⟨fun s => flat _, fun t => (joins.eval_eq cubic t).trans (flat _), ?_⟩
    unfold bezier
    simp only [flat]
    rw [← level]
    exact bernstein_level_iff _ _ _

/-- The joint from `(0, 0)` to `(1, 1)` that eases in and out. -/
theorem traces_bezier_easing :
    ∃ (curve : Curve ℝ) (branch : Branch ℝ) (shared : SharedSolver ℝ),
      (buildCurve SolverPool.empty (Path.oneJoint
        ⟨⟨0, 0⟩, Vec.zero, ⟨1 / 4, 1 / 2⟩⟩ ⟨⟨1, 1⟩, ⟨-1 / 4, -1 / 2⟩, Vec.zero⟩)).1 = .ok curve ∧
      curve.branches[0]? = some branch ∧ branch.shape = .cubic shared ∧
      ∀ s, remap (Cubic.value s shared.solver.y1 shared.solver.y2) 0 1 0 1 =
        bernstein s 0 (0 + 1 / 2) (1 + -1 / 2) 1 := by
  obtain ⟨shared, built⟩ := buildCurve_oneJoint
    ⟨⟨0, 0⟩, Vec.zero, ⟨1 / 4, 1 / 2⟩⟩ ⟨⟨1, 1⟩, ⟨-1 / 4, -1 / 2⟩, Vec.zero⟩
    (by norm_num) (by norm_num) (by norm_num) (by norm_num)
  obtain ⟨branch, isBranch, -, -, traces⟩ :=
    buildCurve_traces_bezier built (Path.joints_oneJoint _ _)
  cases isBranch
  exact ⟨_, _, shared, built, rfl, rfl, ((traces shared rfl).2.1 zero_ne_one).1⟩

/-- Between anchors of one height the handles are lost: the curve rises to `7 / 8` and the branch
stays at `1 / 2`. -/
theorem not_traces_bezier_level :
    ¬∀ (pool : SolverPool ℝ) (path : Path ℝ) (curve : Curve ℝ),
      (buildCurve pool path).1 = .ok curve →
      ∀ (index : ℕ) (left right : Segment ℝ),
        path.normalized.joints[index]? = some (left, right) →
        ∀ branch shared, curve.branches[index]? = some branch → branch.shape = .cubic shared →
          ∀ s, 0 ≤ s → s ≤ 1 →
            left.point.x + (right.point.x - left.point.x) *
                Cubic.value s shared.solver.x1 shared.solver.x2 =
              (bezier left.toKnot right.toKnot s).x ∧
            remap (Cubic.value s shared.solver.y1 shared.solver.y2) 0 1
                left.point.y right.point.y =
              (bezier left.toKnot right.toKnot s).y := by
  intro traces
  obtain ⟨shared, built⟩ := buildCurve_oneJoint
    ⟨⟨0, 1 / 2⟩, Vec.zero, ⟨1 / 4, 1 / 2⟩⟩ ⟨⟨1, 1 / 2⟩, ⟨-1 / 4, 1 / 2⟩, Vec.zero⟩
    (by norm_num) (by norm_num) (by norm_num) (by norm_num)
  have top := (traces _ _ _ built 0 _ _ (Path.joints_oneJoint _ _) _ shared rfl rfl
    (1 / 2) (by norm_num) (by norm_num)).2
  rw [remap_unit] at top
  unfold bezier bernstein at top
  norm_num at top

end Easing
