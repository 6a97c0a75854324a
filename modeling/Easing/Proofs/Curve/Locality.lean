/-
**Curves go through their anchors, joint by joint.**

A curve is a chain of branches, and every anchor but the last is evaluated by the branch on its
right. Both branches at an anchor have its height there, so it does not matter which of them is
asked: on a joint, both ends included, the curve is the branch of the joint. That branch is made
from the two anchors and the two handles between them alone.

* `Knot.Faces`: two joints with the same anchors and the same handles between them.
* `anonymousBranch_of_faces`: such joints have one branch, wherever they stand in a path.
* `buildCurve_branch`: the joints of a path that compiles and the branches of its curve.
* `buildCurve_interpolates_locally`: both properties of a curve.
-/
import Mathlib
import Easing.Proofs.Curve.Acceptance
import Easing.Proofs.Curve.Interpolation

set_option linter.unusedSectionVars false

namespace Easing

/-! ### Joints that face each other alike -/

section Facing

variable {α : Type} [Scalar α]

/-- Two joints have the same anchors and the same handles between them. -/
structure Knot.Faces (left right left' right' : Knot α) : Prop where
  start : left'.point = left.point
  stop : right'.point = right.point
  out : left'.handleOut = left.handleOut
  back : right'.handleIn = right.handleIn

/-- **A joint is made from what faces it.** Its index is for messages only. -/
theorem anonymousBranch_of_faces {left right left' right' : Knot α}
    (faces : left.Faces right left' right') {index : Nat} (index' : Nat) {branch : Branch α}
    (ok : anonymousBranch index left right = .ok branch) :
    anonymousBranch index' left' right' = .ok branch := by
  have controls : jointControls left' right' = jointControls left right := by
    unfold jointControls Knot.handlePoint Knot.handle
    rw [faces.start, faces.stop, faces.out, faces.back]
  unfold anonymousBranch at ok ⊢
  rw [faces.start, faces.stop, faces.out, faces.back, controls]
  split at ok
  next => cases ok
  next forward =>
    rw [if_neg forward]
    exact ok

end Facing

/-! ### The joints of a path -/

section Paths

variable {pool : SolverPool ℝ} {path : Path ℝ} {curve : Curve ℝ}

/-- Consecutive segments of a path that compiles have the branch of their joint. -/
theorem buildCurve_branch (built : (buildCurve pool path).1 = .ok curve) {index : ℕ}
    {left right : Segment ℝ} (isLeft : path.normalized.segments[index]? = some left)
    (isRight : path.normalized.segments[index + 1]? = some right) :
    ∃ branch ∈ curve.branches, branch.Joins left.toKnot right.toKnot ∧
      anonymousBranch index left.toKnot right.toKnot = .ok branch.anonymous := by
  have joint : path.normalized.joints[index]? = some (left, right) :=
    Path.getElem?_pairs.mpr ⟨isLeft, isRight⟩
  have two : 2 ≤ path.size := path.size_normalized ▸ buildCurve_two built
  obtain ⟨sameLength, joins⟩ := List.forall₂_iff_get.mp (buildCurve_joins built)
  obtain ⟨inJoints, isJoint⟩ := List.getElem?_eq_some_iff.mp joint
  have inBranches : index < curve.branches.length := sameLength ▸ inJoints
  replace joins := joins index inJoints inBranches
  rw [List.get_eq_getElem, List.get_eq_getElem, isJoint] at joins
  refine ⟨curve.branches[index], List.getElem_mem inBranches, joins, ?_⟩
  -- the branches without serial numbers are those of the loop over the joints
  have outcome : anonymousBranches 0 path.normalized.joints =
      .ok (curve.branches.map Branch.anonymous) := by
    rw [← map_pathBranches pool two]
    rw [buildCurve_eq] at built
    cases ok : (pathBranches pool path.normalized).1 with
    | error error =>
      rw [ok] at built
      cases built
    | ok branches =>
      rw [ok] at built
      rw [eq_of_checked built]
      rfl
  rcases anonymousBranches_cases 0 path.normalized.joints with
    ⟨branches, ok, -, all⟩ | ⟨_, _, _, failed, -⟩
  · obtain rfl := Except.ok.inj (outcome.symm.trans ok)
    obtain ⟨branch, isBranch, own⟩ := all index (left, right) joint
    rw [List.getElem?_map, List.getElem?_eq_getElem inBranches] at isBranch
    rw [← Option.some.inj isBranch, Nat.zero_add] at own
    exact own
  · rw [outcome] at failed
    cases failed

/-- A curve goes through both anchors of a joint, and between them it is the branch of the joint. -/
theorem buildCurve_eval_joint (built : (buildCurve pool path).1 = .ok curve) {index : ℕ}
    {left right : Segment ℝ} (isLeft : path.normalized.segments[index]? = some left)
    (isRight : path.normalized.segments[index + 1]? = some right) :
    ∃ branch, anonymousBranch index left.toKnot right.toKnot = .ok branch ∧ branch.Meets ∧
      branch.start = left.point ∧ branch.stop = right.point ∧
      ∀ t, left.point.x ≤ t → t ≤ right.point.x → curve.eval t = branch.eval t := by
  obtain ⟨branch, member, joins, own⟩ := buildCurve_branch built isLeft isRight
  have meets := joins.meets
  refine ⟨branch.anonymous, own, ⟨?_, ?_⟩, joins.start, joins.stop, fun t low high => ?_⟩
  · rw [Branch.eval_anonymous]
    exact meets.start
  · rw [Branch.eval_anonymous]
    exact meets.stop
  · rw [Branch.eval_anonymous]
    exact buildCurve_eval built member (by rwa [joins.start]) (by rwa [joins.stop])

/-- A curve goes through every anchor of its path. -/
theorem buildCurve_eval_anchor (built : (buildCurve pool path).1 = .ok curve)
    {segment : Segment ℝ} (member : segment ∈ path.normalized.segments) :
    curve.eval segment.point.x = segment.point.y := by
  obtain ⟨⟨left, right⟩, inside, isEnd⟩ := Path.exists_pair (buildCurve_two built) member
  obtain ⟨index, joint⟩ := List.mem_iff_getElem?.mp inside
  obtain ⟨isLeft, isRight⟩ := Path.getElem?_pairs.mp joint
  obtain ⟨branch, member, joins, -⟩ := buildCurve_branch built isLeft isRight
  have forward := joins.x_lt.le
  obtain ⟨branch, -, meets, start, stop, on⟩ := buildCurve_eval_joint built isLeft isRight
  rcases isEnd with rfl | rfl
  · rw [on _ le_rfl forward, ← start]
    exact meets.start
  · rw [on _ forward le_rfl, ← stop]
    exact meets.stop

/-- **A curve goes through its anchors and is local.** The curve of a path takes the height of every
anchor at the anchor's x. Any other curve whose path has a joint with the same two anchors and the
same two handles between them, wherever in the path it stands and whatever stands around it, takes
the same values on this joint, both ends included. -/
theorem buildCurve_interpolates_locally (built : (buildCurve pool path).1 = .ok curve) :
    (∀ segment ∈ path.normalized.segments, curve.eval segment.point.x = segment.point.y) ∧
      ∀ (pool' : SolverPool ℝ) (path' : Path ℝ) (curve' : Curve ℝ),
        (buildCurve pool' path').1 = .ok curve' →
        ∀ (index index' : ℕ) (left right left' right' : Segment ℝ),
          path.normalized.segments[index]? = some left →
          path.normalized.segments[index + 1]? = some right →
          path'.normalized.segments[index']? = some left' →
          path'.normalized.segments[index' + 1]? = some right' →
          left.Faces right.toKnot left'.toKnot right'.toKnot →
          ∀ t, left.point.x ≤ t → t ≤ right.point.x → curve'.eval t = curve.eval t := by
  refine ⟨fun segment member => buildCurve_eval_anchor built member, ?_⟩
  intro pool' path' curve' built' index index' left right left' right' isLeft isRight isLeft'
    isRight' faces t low high
  obtain ⟨branch, own, -, -, -, on⟩ := buildCurve_eval_joint built isLeft isRight
  obtain ⟨branch', own', -, -, -, on'⟩ := buildCurve_eval_joint built' isLeft' isRight'
  obtain rfl : branch = branch' :=
    Except.ok.inj ((anonymousBranch_of_faces faces index' own).symm.trans own')
  rw [on t low high, on' t (by rwa [faces.start]) (by rwa [faces.stop])]

/-! ### Two paths with one ramp -/

/-- A path whose joints compile has a curve. -/
theorem exists_curve_of_joinable (pool : SolverPool ℝ) (path : Path ℝ) (width : 0 < path.domain)
    (two : 2 ≤ path.size) (joinable : ∀ joint ∈ path.joints, joint.1.Joinable joint.2.toKnot) :
    ∃ curve, (buildCurve pool path).1 = .ok curve := by
  rcases buildCurve_cases pool width two with ⟨curve, built, -⟩ | ⟨_, joint, _, broken, -⟩
  · exact ⟨curve, built⟩
  · exact absurd (joinable joint (List.mem_of_getElem? broken.found)) broken.broken

theorem Path.normalized_unit (segments : List (Segment ℝ)) :
    (Path.mk segments 1).normalized = ⟨segments, 1⟩ := by
  unfold normalized
  rw [if_pos (beq_iff_eq.mpr Scalar.one_real.symm)]

/-- A curved joint from `(1/4, 0)` to `(3/4, 1)` with other anchors around it. -/
noncomputable def Path.ramp (before after : List (Segment ℝ)) : Path ℝ :=
  ⟨before ++ [⟨⟨⟨1 / 4, 0⟩, ⟨0, 0⟩, ⟨1 / 4, 0⟩⟩, ⟨0⟩⟩, ⟨⟨⟨3 / 4, 1⟩, ⟨-1 / 4, 0⟩, ⟨0, 0⟩⟩, ⟨1⟩⟩] ++
    after, 1⟩

/-- An anchor without handles. -/
def Segment.plain (x y : ℝ) (id : ℕ) : Segment ℝ := ⟨⟨⟨x, y⟩, ⟨0, 0⟩, ⟨0, 0⟩⟩, ⟨id⟩⟩

/-- The ramp is the same wherever it stands, and it ends at the height of its anchor. -/
theorem interpolates_locally_ramp :
    ∃ curve curve' : Curve ℝ,
      (buildCurve SolverPool.empty (Path.ramp [.plain 0 0 2] [.plain 1 1 3])).1 = .ok curve ∧
      (buildCurve SolverPool.empty
        (Path.ramp [.plain 0 5 2, .plain (1 / 8) 2 3] [.plain 1 (-1) 4])).1 = .ok curve' ∧
      curve.eval (3 / 4) = 1 ∧ ∀ t, 1 / 4 ≤ t → t ≤ 3 / 4 → curve'.eval t = curve.eval t := by
  obtain ⟨curve, built⟩ := exists_curve_of_joinable
    SolverPool.empty (.ramp [.plain 0 0 2] [.plain 1 1 3]) zero_lt_one (by decide) (by
      simp [Path.ramp, Path.joints, Path.pairs, Segment.plain, Knot.Joinable, Knot.Straight,
        Knot.handlePoint, Knot.handle]
      norm_num [HAdd.hAdd, Point.add])
  obtain ⟨curve', built'⟩ := exists_curve_of_joinable
    SolverPool.empty (.ramp [.plain 0 5 2, .plain (1 / 8) 2 3] [.plain 1 (-1) 4]) zero_lt_one
    (by decide) (by
      simp [Path.ramp, Path.joints, Path.pairs, Segment.plain, Knot.Joinable, Knot.Straight,
        Knot.handlePoint, Knot.handle]
      norm_num [HAdd.hAdd, Point.add])
  obtain ⟨anchors, locally⟩ := buildCurve_interpolates_locally built
  refine ⟨curve, curve', built, built', ?_, ?_⟩
  · refine anchors ⟨⟨⟨3 / 4, 1⟩, ⟨-1 / 4, 0⟩, ⟨0, 0⟩⟩, ⟨1⟩⟩ ?_
    rw [Path.ramp, Path.normalized_unit]
    exact .tail _ (.tail _ (.head _))
  · let left : Segment ℝ := ⟨⟨⟨1 / 4, 0⟩, ⟨0, 0⟩, ⟨1 / 4, 0⟩⟩, ⟨0⟩⟩
    let right : Segment ℝ := ⟨⟨⟨3 / 4, 1⟩, ⟨-1 / 4, 0⟩, ⟨0, 0⟩⟩, ⟨1⟩⟩
    refine locally SolverPool.empty _ curve' built' 1 2 left right left right
      ?_ ?_ ?_ ?_ ⟨rfl, rfl, rfl, rfl⟩
    all_goals rw [Path.ramp, Path.normalized_unit]; rfl

end Paths

end Easing
