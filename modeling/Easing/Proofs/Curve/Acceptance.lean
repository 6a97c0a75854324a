/-
**Which paths compile.**

Read over the reals, a joint compiles when it leads to a greater x and its facing handles, unless
neither has a length, end between its anchors. A path compiles when it has two anchors and all its
joints compile; otherwise the leftmost joint that does not decides the error. Scaling a path to the
unit domain changes neither.

* `anonymousBranches_cases`: the loop over the joints, for any scalars.
* `Knot.Joinable`, `jointDefect`: what a joint must be, and what is wrong with one that is not.
* `Path.normalized_segments`: scaling to the unit domain, and `Knot.joinable_scale`: what it keeps.
* `buildCurve_accepts`: which paths compile, to which branches, and with which error the others
  fail.
-/
import Mathlib
import Easing.Proofs.Curve.Joint

set_option linter.unusedSectionVars false

namespace Easing

/-! ### Consecutive joints -/

namespace Path

variable {α : Type}

theorem pairs_map (change : Segment α → Segment α) (segments : List (Segment α)) :
    pairs (segments.map change) = (pairs segments).map (Prod.map change change) := by
  induction segments using pairs.induct with
  | case1 left right rest ih =>
    rw [List.map_cons] at ih
    rw [List.map_cons, List.map_cons, pairs, ih, pairs, List.map_cons]
    rfl
  | case2 segments short =>
    rcases segments with _ | ⟨left, _ | ⟨right, rest⟩⟩
    · rfl
    · rfl
    · exact absurd rfl (short left right rest)

theorem getElem?_pairs {segments : List (Segment α)} {index : Nat} {left right : Segment α} :
    (pairs segments)[index]? = some (left, right) ↔
      segments[index]? = some left ∧ segments[index + 1]? = some right := by
  induction segments using pairs.induct generalizing index with
  | case1 first second rest ih =>
    cases index with
    | zero => simp [pairs]
    | succ index =>
      rw [pairs, List.getElem?_cons_succ, List.getElem?_cons_succ, List.getElem?_cons_succ]
      exact ih
  | case2 segments short =>
    rcases segments with _ | ⟨first, _ | ⟨second, rest⟩⟩
    · simp [pairs]
    · simp [pairs]
    · exact absurd rfl (short first second rest)

theorem length_pairs (segments : List (Segment α)) :
    (pairs segments).length = segments.length - 1 := by
  induction segments using pairs.induct with
  | case1 left right rest ih =>
    rw [pairs, List.length_cons, ih]
    rfl
  | case2 segments short =>
    rcases segments with _ | ⟨left, _ | ⟨right, rest⟩⟩
    · rfl
    · rfl
    · exact absurd rfl (short left right rest)

end Path

/-! ### The loop over the joints -/

section Joints

variable {α : Type} [Scalar α]

/-- The branches are those of the joints, the first of which has the given index. -/
def BranchesOf (index : Nat) (joints : List (Segment α × Segment α))
    (branches : List (Branch α)) : Prop :=
  branches.length = joints.length ∧
    ∀ later joint, joints[later]? = some joint → ∃ branch, branches[later]? = some branch ∧
      anonymousBranch (index + later) joint.1.toKnot joint.2.toKnot = .ok branch

/-- The first joint without a branch, and its error. -/
structure FirstFailure (index : Nat) (joints : List (Segment α × Segment α)) (later : Nat)
    (joint : Segment α × Segment α) (error : CurveError α) : Prop where
  found : joints[later]? = some joint
  fails : anonymousBranch (index + later) joint.1.toKnot joint.2.toKnot = .error error
  first : ∀ earlier before, earlier < later → joints[earlier]? = some before →
    ∃ branch, anonymousBranch (index + earlier) before.1.toKnot before.2.toKnot = .ok branch

/-- **The first joint without a branch decides the error.** -/
theorem anonymousBranches_cases (index : Nat) (joints : List (Segment α × Segment α)) :
    (∃ branches, anonymousBranches index joints = .ok branches ∧
        BranchesOf index joints branches) ∨
      ∃ later joint error, anonymousBranches index joints = .error error ∧
        FirstFailure index joints later joint error := by
  induction joints generalizing index with
  | nil => exact .inl ⟨[], rfl, rfl, fun later joint found => by simp at found⟩
  | cons first rest ih =>
    obtain ⟨left, right⟩ := first
    cases head : anonymousBranch index left.toKnot right.toKnot with
    | error error =>
      refine .inr ⟨0, (left, right), error, ?_, rfl, head, fun earlier before less => ?_⟩
      · rw [anonymousBranches, head]
        rfl
      · exact absurd less (Nat.not_lt_zero earlier)
    | ok branch =>
      have step : anonymousBranches index ((left, right) :: rest) =
          (anonymousBranches (index + 1) rest).map (branch :: ·) := by
        rw [anonymousBranches, head]
        rfl
      rw [step]
      rcases ih (index + 1) with ⟨branches, ok, length, all⟩ | ⟨later, joint, error, failed, isFirst⟩
      · refine .inl ⟨branch :: branches, by rw [ok]; rfl, by simp [length], ?_⟩
        intro later joint found
        cases later with
        | zero =>
          obtain rfl := Option.some.inj found
          exact ⟨branch, rfl, head⟩
        | succ later =>
          obtain ⟨other, isOther, own⟩ := all later joint found
          exact ⟨other, isOther, by rwa [Nat.add_right_comm] at own⟩
      · refine .inr ⟨later + 1, joint, error, by rw [failed]; rfl, isFirst.found, ?_, ?_⟩
        · rw [← isFirst.fails, Nat.add_right_comm]
          rfl
        · intro earlier before less found
          cases earlier with
          | zero =>
            obtain rfl := Option.some.inj found
            exact ⟨branch, head⟩
          | succ earlier =>
            obtain ⟨other, own⟩ := isFirst.first earlier before (Nat.lt_of_succ_lt_succ less) found
            exact ⟨other, by rwa [Nat.add_right_comm] at own⟩

end Joints

/-! ### Joints that compile -/

section Reals

/-- No handle between two anchors has a length. -/
def Knot.Straight (left right : Knot ℝ) : Prop :=
  left.handleOut = ⟨0, 0⟩ ∧ right.handleIn = ⟨0, 0⟩

/-- A joint leads to a greater x, and its handles end between its anchors unless they have no
length. -/
def Knot.Joinable (left right : Knot ℝ) : Prop :=
  left.point.x < right.point.x ∧
    (¬left.Straight right →
      (left.handlePoint .outgoing).x ∈ Set.Icc left.point.x right.point.x ∧
        (right.handlePoint .incoming).x ∈ Set.Icc left.point.x right.point.x)

/-- What is wrong with a joint: it does not lead to a greater x, or else a handle leaves it. -/
noncomputable def jointDefect (index : ℕ) (left right : Knot ℝ) : CurveError ℝ :=
  if right.point.x ≤ left.point.x then
    .invalidCurve left.point.x (.backwardJoint index left.point.x right.point.x)
  else
    .controlsOutside
      (remap (left.handlePoint .outgoing).x left.point.x right.point.x 0 1)
      (remap (right.handlePoint .incoming).x left.point.x right.point.x 0 1)

variable {left right : Knot ℝ}

theorem isStraight_iff :
    (left.handleOut.isZero && right.handleIn.isZero) = true ↔ left.Straight right := by
  obtain ⟨-, -, ⟨outX, outY⟩⟩ := left
  obtain ⟨-, ⟨inX, inY⟩, -⟩ := right
  rw [Bool.and_eq_true, Vec.isZero_real, Vec.isZero_real]
  unfold Knot.Straight
  rw [Vec.mk.injEq, Vec.mk.injEq]

theorem isBackward_iff (start stop : ℝ) : isBackward start stop = true ↔ stop ≤ start := by
  unfold isBackward
  rw [Bool.or_eq_true, Bool.or_eq_true, decide_eq_true_eq]
  exact ⟨fun either => either.elim (·.resolve_right Bool.false_ne_true)
    (absurd · Bool.false_ne_true), fun le => .inl (.inl le)⟩

/-- A joint has a branch between its anchors, straight or curved. -/
theorem anonymousBranch_of_joinable (index : ℕ) (joinable : left.Joinable right) :
    ∃ branch, anonymousBranch index left right = .ok branch ∧ branch.start = left.point ∧
      branch.stop = right.point ∧ (branch.isCubic = false ↔ left.Straight right) := by
  obtain ⟨forward, inside⟩ := joinable
  have notBackward : ¬isBackward left.point.x right.point.x = true := by
    rwa [isBackward_iff, not_le]
  unfold anonymousBranch
  rw [if_neg notBackward]
  by_cases straight : left.Straight right
  · rw [if_pos (isStraight_iff.mpr straight)]
    exact ⟨_, rfl, rfl, rfl, iff_of_true rfl straight⟩
  · obtain ⟨out, back⟩ := inside straight
    have x1 : InUnit (jointControls left right).x1 := by
      rw [jointControls_real]
      exact (inUnit_remap_iff forward).mpr out
    have x2 : InUnit (jointControls left right).x2 := by
      rw [jointControls_real]
      exact (inUnit_remap_iff forward).mpr back
    rw [if_neg (mt isStraight_iff.mp straight)]
    unfold UnitCubic.ofControls
    rw [dif_pos x1, dif_pos x2]
    exact ⟨_, rfl, rfl, rfl, iff_of_false (Bool.false_ne_true ·.symm) straight⟩

/-- Any other joint has the error that tells what is wrong with it. -/
theorem anonymousBranch_of_not_joinable (index : ℕ) (broken : ¬left.Joinable right) :
    anonymousBranch index left right = .error (jointDefect index left right) := by
  unfold anonymousBranch jointDefect
  by_cases forward : left.point.x < right.point.x
  · have notBackward : ¬isBackward left.point.x right.point.x = true := by
      rwa [isBackward_iff, not_le]
    obtain ⟨curved, leaves⟩ := Classical.not_imp.mp fun inside => broken ⟨forward, inside⟩
    rw [if_neg notBackward, if_neg (mt isStraight_iff.mp curved), if_neg (not_le.mpr forward)]
    have outside : ¬(InUnit (jointControls left right).x1 ∧
        InUnit (jointControls left right).x2) := by
      rw [jointControls_real]
      intro both
      exact leaves ⟨(inUnit_remap_iff forward).mp both.1, (inUnit_remap_iff forward).mp both.2⟩
    have refused : UnitCubic.ofControls (jointControls left right) =
        .error (.controlsOutside (jointControls left right).x1 (jointControls left right).x2) := by
      unfold UnitCubic.ofControls
      split_ifs with x1 x2
      · exact absurd ⟨x1, x2⟩ outside
      · rfl
      · rfl
    rw [refused, jointControls_real]
    rfl
  · rw [if_pos ((isBackward_iff _ _).mpr (not_lt.mp forward)), if_pos (not_lt.mp forward)]

theorem exists_anonymousBranch_iff (index : ℕ) :
    (∃ branch, anonymousBranch index left right = .ok branch) ↔ left.Joinable right := by
  constructor
  · rintro ⟨branch, ok⟩
    by_contra broken
    rw [anonymousBranch_of_not_joinable index broken] at ok
    cases ok
  · intro joinable
    obtain ⟨branch, ok, -⟩ := anonymousBranch_of_joinable index joinable
    exact ⟨branch, ok⟩

/-! ### Scaling to the unit domain -/

section Scaling

variable {factor : ℝ}

theorem Knot.straight_scale (positive : 0 < factor) :
    (left.scale factor).Straight (right.scale factor) ↔ left.Straight right := by
  obtain ⟨-, -, ⟨outX, outY⟩⟩ := left
  obtain ⟨-, ⟨inX, inY⟩, -⟩ := right
  unfold Straight scale Vec.scale
  simp only [Vec.mk.injEq, mul_eq_zero, positive.ne', or_false]

theorem Point.scale_x (p : Point ℝ) : (p.scale factor).x = p.x * factor := rfl

/-- The position of a handle is scaled with its anchor. -/
theorem Knot.handlePoint_scale (knot : Knot ℝ) (side : Side) :
    (knot.scale factor).handlePoint side = (knot.handlePoint side).scale factor := by
  cases side <;> exact congrArg₂ Point.mk (add_mul _ _ _).symm (add_mul _ _ _).symm

theorem Knot.joinable_scale (positive : 0 < factor) :
    (left.scale factor).Joinable (right.scale factor) ↔ left.Joinable right := by
  have position : ∀ knot : Knot ℝ, (knot.scale factor).point = knot.point.scale factor :=
    fun _ => rfl
  unfold Joinable
  simp only [straight_scale positive, handlePoint_scale, position, Point.scale_x, Set.mem_Icc,
    mul_lt_mul_iff_left₀ positive, mul_le_mul_iff_left₀ positive]

/-- A segment, scaled. -/
noncomputable def Segment.scaled (factor : ℝ) (segment : Segment ℝ) : Segment ℝ :=
  { segment with toKnot := segment.toKnot.scale factor }

theorem Segment.scaled_one (segment : Segment ℝ) : segment.scaled 1 = segment := by
  obtain ⟨⟨⟨x, y⟩, ⟨inX, inY⟩, ⟨outX, outY⟩⟩, id⟩ := segment
  simp [scaled, Knot.scale, Point.scale, Vec.scale]

namespace Path

/-- The path over the unit domain is scaled, also where it is left as it is. -/
theorem normalized_segments (path : Path ℝ) :
    path.normalized.segments = path.segments.map (Segment.scaled (1 / path.domain)) := by
  unfold normalized
  split_ifs with unit
  · rw [beq_iff_eq, Scalar.one_real] at unit
    rw [unit, one_div_one, show Segment.scaled 1 = id from funext Segment.scaled_one, List.map_id]
  · rw [Scalar.one_real]
    rfl

theorem size_normalized (path : Path ℝ) : path.normalized.size = path.size := by
  unfold size
  rw [normalized_segments, List.length_map]

theorem joints_normalized (path : Path ℝ) :
    path.normalized.joints = path.joints.map
      (Prod.map (Segment.scaled (1 / path.domain)) (Segment.scaled (1 / path.domain))) := by
  unfold joints
  rw [normalized_segments, pairs_map]

/-- The joints of the scaled path compile where those of the path do. -/
theorem joinable_normalized {path : Path ℝ} (width : 0 < path.domain) {index : ℕ}
    {joint unit : Segment ℝ × Segment ℝ} (found : path.joints[index]? = some joint)
    (scaled : path.normalized.joints[index]? = some unit) :
    (unit.1.Joinable unit.2.toKnot ↔ joint.1.Joinable joint.2.toKnot) ∧
      (unit.1.Straight unit.2.toKnot ↔ joint.1.Straight joint.2.toKnot) := by
  rw [joints_normalized, List.getElem?_map, found] at scaled
  obtain rfl := Option.some.inj scaled
  have positive : 0 < 1 / path.domain := one_div_pos.mpr width
  exact ⟨Knot.joinable_scale positive, Knot.straight_scale positive⟩

end Path

end Scaling

/-! ### Paths that compile -/

section Paths

variable {pool : SolverPool ℝ} {path : Path ℝ} {error : CurveError ℝ} {curve : Curve ℝ}

/-- Over the reals a path fails to compile when its joints do. -/
theorem buildCurve_eq_error_iff :
    (buildCurve pool path).1 = .error error ↔
      (pathBranches pool path.normalized).1 = .error error := by
  rw [buildCurve_eq]
  cases ok : (pathBranches pool path.normalized).1 with
  | error other =>
    show Except.error other = Except.error error ↔ Except.error other = Except.error error
    rw [Except.error.injEq, Except.error.injEq]
  | ok branches =>
    have built := buildCurve_real ok
    rw [buildCurve_eq, ok] at built
    rw [built]
    exact iff_of_false nofun nofun

/-- A path with two anchors has the outcome of its joints. -/
theorem map_pathBranches (pool : SolverPool ℝ) (two : 2 ≤ path.size) :
    (pathBranches pool path.normalized).1.map (List.map Branch.anonymous) =
      anonymousBranches 0 path.normalized.joints := by
  rw [pathBranches_anonymous, if_neg (by rw [path.size_normalized]; omega)]

theorem buildCurve_of_few (few : path.size < 2) :
    (buildCurve pool path).1 = .error (.invalidCurve 0 (.tooFewAnchors path.size)) := by
  rw [buildCurve_eq_error_iff]
  unfold pathBranches
  rw [path.size_normalized, if_pos few, Scalar.zero_real]

/-- The joints of the unit path that have branches are the joints of the path that compile. -/
theorem exists_branch_iff (width : 0 < path.domain) {index : ℕ} {joint unit : Segment ℝ × Segment ℝ}
    (found : path.joints[index]? = some joint) (scaled : path.normalized.joints[index]? = some unit) :
    (∃ branch, anonymousBranch (0 + index) unit.1.toKnot unit.2.toKnot = .ok branch) ↔
      joint.1.Joinable joint.2.toKnot :=
  (exists_anonymousBranch_iff _).trans (Path.joinable_normalized width found scaled).1

/-- Every joint has its scaled joint. -/
theorem exists_unit {index : ℕ} {joint : Segment ℝ × Segment ℝ}
    (found : path.joints[index]? = some joint) :
    ∃ unit, path.normalized.joints[index]? = some unit := by
  rw [path.joints_normalized, List.getElem?_map, found]
  exact ⟨_, rfl⟩

theorem exists_joint_of_unit {index : ℕ} {unit : Segment ℝ × Segment ℝ}
    (scaled : path.normalized.joints[index]? = some unit) :
    ∃ joint, path.joints[index]? = some joint := by
  rw [path.joints_normalized, List.getElem?_map, Option.map_eq_some_iff] at scaled
  obtain ⟨joint, found, -⟩ := scaled
  exact ⟨joint, found⟩

/-- The leftmost joint of a path that does not compile. -/
structure Path.FirstBroken (path : Path ℝ) (index : ℕ) (joint : Segment ℝ × Segment ℝ) : Prop where
  found : path.joints[index]? = some joint
  broken : ¬joint.1.Joinable joint.2.toKnot
  first : ∀ earlier before, earlier < index → path.joints[earlier]? = some before →
    before.1.Joinable before.2.toKnot

/-- **Either all joints compile, or the leftmost one that does not decides the error.** -/
theorem buildCurve_cases (pool : SolverPool ℝ) (width : 0 < path.domain) (two : 2 ≤ path.size) :
    (∃ curve, (buildCurve pool path).1 = .ok curve ∧
        BranchesOf 0 path.normalized.joints (curve.branches.map Branch.anonymous) ∧
        ∀ joint ∈ path.joints, joint.1.Joinable joint.2.toKnot) ∨
      ∃ index joint unit, path.FirstBroken index joint ∧
        path.normalized.joints[index]? = some unit ∧
        (buildCurve pool path).1 = .error (jointDefect index unit.1.toKnot unit.2.toKnot) := by
  have outcome := map_pathBranches pool two
  rcases anonymousBranches_cases 0 path.normalized.joints with
    ⟨branches, ok, all⟩ | ⟨index, unit, error, failed, isFirst⟩
  · rw [ok] at outcome
    cases built : (pathBranches pool path.normalized).1 with
    | error error =>
      rw [built] at outcome
      cases outcome
    | ok named =>
      rw [built] at outcome
      obtain rfl := Except.ok.inj outcome
      refine .inl ⟨⟨named⟩, buildCurve_real built, all, fun joint member => ?_⟩
      obtain ⟨index, found⟩ := List.mem_iff_getElem?.mp member
      obtain ⟨unit, scaled⟩ := exists_unit found
      obtain ⟨branch, -, own⟩ := all.2 index unit scaled
      exact (exists_branch_iff width found scaled).mp ⟨branch, own⟩
  · obtain ⟨joint, found⟩ := exists_joint_of_unit isFirst.found
    have broken : ¬joint.1.Joinable joint.2.toKnot := by
      rw [← exists_branch_iff width found isFirst.found, isFirst.fails]
      exact nofun
    refine .inr ⟨index, joint, unit, ⟨found, broken, fun earlier before less inside => ?_⟩,
      isFirst.found, ?_⟩
    · obtain ⟨other, scaled⟩ := exists_unit inside
      exact (exists_branch_iff width inside scaled).mp (isFirst.first earlier other less scaled)
    · have defect := isFirst.fails
      rw [anonymousBranch_of_not_joinable _
        (mt (Path.joinable_normalized width found isFirst.found).1.mp broken), Nat.zero_add] at defect
      rw [buildCurve_eq_error_iff, Except.error.inj defect]
      rw [failed] at outcome
      cases built : (pathBranches pool path.normalized).1 with
      | error other =>
        rw [built] at outcome
        exact congrArg Except.error (Except.error.inj outcome)
      | ok named =>
        rw [built] at outcome
        cases outcome

/-- A branch leads from one anchor to another one at a greater x. -/
structure Branch.Between (left right : Knot ℝ) (branch : Branch ℝ) : Prop where
  start : branch.start = left.point
  stop : branch.stop = right.point
  forward : branch.start.x < branch.stop.x

/-- **The branches of a curve lie between consecutive anchors**, and a branch is a line exactly when
no handle between its anchors has a length. -/
theorem buildCurve_between (width : 0 < path.domain) (two : 2 ≤ path.size)
    (built : (buildCurve pool path).1 = .ok curve) :
    curve.branches.length + 1 = path.size ∧
      ∀ index branch, curve.branches[index]? = some branch → ∃ (left right : Segment ℝ)
        (joint : Segment ℝ × Segment ℝ), path.normalized.segments[index]? = some left ∧
        path.normalized.segments[index + 1]? = some right ∧ path.joints[index]? = some joint ∧
        branch.Between left.toKnot right.toKnot ∧
        (branch.isCubic = false ↔ joint.1.Straight joint.2.toKnot) := by
  rcases buildCurve_cases pool width two with
    ⟨other, ok, ⟨length, all⟩, joinable⟩ | ⟨_, _, _, -, -, failed⟩
  · obtain rfl := Except.ok.inj (built.symm.trans ok)
    have count : path.normalized.joints.length = path.size - 1 := by
      rw [← path.size_normalized]
      exact Path.length_pairs _
    rw [List.length_map] at length
    refine ⟨by omega, fun index branch isBranch => ?_⟩
    obtain ⟨bound, -⟩ := List.getElem?_eq_some_iff.mp isBranch
    obtain ⟨⟨left, right⟩, scaled⟩ : ∃ unit, path.normalized.joints[index]? = some unit :=
      ⟨_, List.getElem?_eq_getElem (by omega)⟩
    obtain ⟨isLeft, isRight⟩ := Path.getElem?_pairs.mp scaled
    obtain ⟨nameless, isNameless, own⟩ := all index (left, right) scaled
    rw [List.getElem?_map, isBranch] at isNameless
    obtain rfl := Option.some.inj isNameless
    have joins : left.Joinable right.toKnot := (exists_anonymousBranch_iff _).mp ⟨_, own⟩
    obtain ⟨same, isSame, start, stop, line⟩ := anonymousBranch_of_joinable (0 + index) joins
    obtain rfl := Except.ok.inj (own.symm.trans isSame)
    rw [Branch.isCubic_anonymous] at line
    obtain ⟨joint, found⟩ := exists_joint_of_unit scaled
    refine ⟨left, right, joint, isLeft, isRight, found, ⟨start, stop, ?_⟩,
      line.trans (Path.joinable_normalized width found scaled).2⟩
    have forward := joins.1
    rwa [← start, ← stop] at forward
  · rw [built] at failed
    cases failed

/-- **Which paths compile, to what, and why the others do not.** A path compiles if and only if it
has two anchors and all its joints lead to a greater x, with handles that have no length or end
between the anchors. It then has one branch from each anchor to the next, a line exactly where no
handle has a length. Otherwise the leftmost joint that is not so decides the error: a wrong order of
its anchors first, then its handles, seen from the anchors. -/
theorem buildCurve_accepts (pool : SolverPool ℝ) (path : Path ℝ) (width : 0 < path.domain) :
    ((∃ curve, (buildCurve pool path).1 = .ok curve) ↔
        2 ≤ path.size ∧ ∀ joint ∈ path.joints, joint.1.Joinable joint.2.toKnot) ∧
      (∀ curve, (buildCurve pool path).1 = .ok curve →
        curve.branches.length + 1 = path.size ∧
          ∀ index branch, curve.branches[index]? = some branch → ∃ (left right : Segment ℝ)
            (joint : Segment ℝ × Segment ℝ), path.normalized.segments[index]? = some left ∧
            path.normalized.segments[index + 1]? = some right ∧ path.joints[index]? = some joint ∧
            branch.Between left.toKnot right.toKnot ∧
            (branch.isCubic = false ↔ joint.1.Straight joint.2.toKnot)) ∧
      (∀ error, (buildCurve pool path).1 = .error error → 2 ≤ path.size →
        ∃ index joint unit, path.FirstBroken index joint ∧
          path.normalized.joints[index]? = some unit ∧
          error = jointDefect index unit.1.toKnot unit.2.toKnot) ∧
      (path.size < 2 →
        (buildCurve pool path).1 = .error (.invalidCurve 0 (.tooFewAnchors path.size))) := by
  have enough : ∀ curve, (buildCurve pool path).1 = .ok curve → 2 ≤ path.size := by
    intro curve built
    rw [← path.size_normalized]
    exact buildCurve_two built
  refine ⟨⟨?_, ?_⟩, ?_, ?_, buildCurve_of_few⟩
  · rintro ⟨curve, built⟩
    refine ⟨enough curve built, ?_⟩
    rcases buildCurve_cases pool width (enough curve built) with
      ⟨_, -, -, joinable⟩ | ⟨_, _, _, -, -, failed⟩
    · exact joinable
    · rw [built] at failed
      cases failed
  · rintro ⟨two, joinable⟩
    rcases buildCurve_cases pool width two with ⟨curve, built, -⟩ | ⟨_, joint, _, broken, -⟩
    · exact ⟨curve, built⟩
    · exact absurd (joinable joint (List.mem_of_getElem? broken.found)) broken.broken
  · intro curve built
    exact buildCurve_between width (enough curve built) built
  · intro error failed two
    rcases buildCurve_cases pool width two with
      ⟨_, built, -⟩ | ⟨index, joint, unit, broken, scaled, failed'⟩
    · rw [built] at failed
      cases failed
    · exact ⟨index, joint, unit, broken, scaled, Except.error.inj (failed.symm.trans failed')⟩

/-- A line, and a joint whose first handle reaches beyond the end. -/
noncomputable def Path.overhanging : Path ℝ :=
  ⟨[⟨⟨⟨0, 0⟩, ⟨0, 0⟩, ⟨0, 0⟩⟩, ⟨0⟩⟩, ⟨⟨⟨1, 1⟩, ⟨0, 0⟩, ⟨3 / 2, 0⟩⟩, ⟨1⟩⟩,
    ⟨⟨⟨2, 0⟩, ⟨0, 0⟩, ⟨0, 0⟩⟩, ⟨2⟩⟩], 2⟩

/-- The line compiles, and the handle beyond the end decides the error. -/
theorem buildCurve_overhanging : 0 < Path.overhanging.domain ∧
    (buildCurve SolverPool.empty Path.overhanging).1 = .error (.controlsOutside (3 / 2) 1) := by
  have width : 0 < Path.overhanging.domain := two_pos
  refine ⟨width, ?_⟩
  obtain ⟨compiles, -, fails, -⟩ := buildCurve_accepts SolverPool.empty Path.overhanging width
  have broken : ¬Knot.Joinable ⟨⟨1, 1⟩, ⟨0, 0⟩, ⟨3 / 2, 0⟩⟩ ⟨⟨2, 0⟩, ⟨0, 0⟩, ⟨0, 0⟩⟩ := by
    rintro ⟨-, inside⟩
    have curved : ¬Knot.Straight ⟨⟨1, 1⟩, ⟨0, 0⟩, ⟨3 / 2, 0⟩⟩ ⟨⟨2, 0⟩, ⟨0, 0⟩, ⟨0, 0⟩⟩ := by
      unfold Knot.Straight
      norm_num
    have : (1 : ℝ) + 3 / 2 ≤ 2 := (inside curved).1.2
    norm_num at this
  have line : Knot.Joinable ⟨⟨0, 0⟩, ⟨0, 0⟩, ⟨0, 0⟩⟩ ⟨⟨1, 1⟩, ⟨0, 0⟩, ⟨3 / 2, 0⟩⟩ :=
    ⟨zero_lt_one, fun curved => absurd ⟨rfl, rfl⟩ curved⟩
  cases outcome : (buildCurve SolverPool.empty Path.overhanging).1 with
  | ok curve =>
    have all := (compiles.mp ⟨curve, outcome⟩).2
    exact absurd (all _ (.tail _ (.head _))) broken
  | error error =>
    obtain ⟨index, joint, unit, first, scaled, rfl⟩ := fails error outcome (by decide)
    obtain ⟨found, isBroken, -⟩ := first
    match index, found with
    | 0, found =>
      obtain rfl := Option.some.inj found
      exact absurd line isBroken
    | 1, found =>
      rw [Path.joints_normalized, List.getElem?_map, found] at scaled
      obtain rfl := Option.some.inj scaled
      obtain rfl := Option.some.inj found
      have first : (1 : ℝ) * (1 / 2) ≠ 2 * (1 / 2) := by norm_num
      show Except.error (jointDefect 1 (Knot.scale ⟨⟨1, 1⟩, ⟨0, 0⟩, ⟨3 / 2, 0⟩⟩ (1 / 2))
        (Knot.scale ⟨⟨2, 0⟩, ⟨0, 0⟩, ⟨0, 0⟩⟩ (1 / 2))) = _
      unfold jointDefect
      rw [if_neg (by show ¬(2 : ℝ) * (1 / 2) ≤ 1 * (1 / 2); norm_num)]
      show Except.error (CurveError.controlsOutside
        (remap (1 * (1 / 2) + 3 / 2 * (1 / 2)) (1 * (1 / 2)) (2 * (1 / 2)) 0 1)
        (remap (2 * (1 / 2) + 0 * (1 / 2)) (1 * (1 / 2)) (2 * (1 / 2)) 0 1)) = _
      rw [remap_real first, remap_real first]
      norm_num

end Paths

end Reals

end Easing
