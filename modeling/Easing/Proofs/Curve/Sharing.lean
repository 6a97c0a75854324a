/-
**Shared solvers change nothing but which object a solver is.**

A pool hands out a solver that it kept instead of a new one with the same control points. What is
compiled is therefore the same whatever the pool held, up to the serial numbers of its solvers.

* `SharedSolver.anonymous`, …, `Compiled.anonymous`: a result without serial numbers.
* `SolverPool.get_anonymous`: a kept solver is the one that would be built.
* `compile_anonymous`: two compiles of a path agree, whatever their pools.
* `compile_eq_of_knots`: a compile looks at the knots of a path and at its domain.
-/
import Easing.Compiled
import Easing.Proofs.Binary64.Encoding

set_option linter.unusedSectionVars false

namespace Easing

/-- A scalar type whose values are told apart by `same`. -/
class LawfulSame (α : Type) [Scalar α] : Prop where
  eq_of_same : ∀ {a b : α}, Scalar.same a b = true → a = b

instance : LawfulSame Float where
  eq_of_same same := Binary64.toBits_injective (eq_of_beq same)

variable {α : Type} [Scalar α]

/-! ### Results without serial numbers -/

/-- The solver, whichever object it is. -/
def SharedSolver.anonymous (shared : SharedSolver α) : SharedSolver α := { shared with serial := 0 }

def Shape.anonymous : Shape α → Shape α
  | .line slope => .line slope
  | .cubic shared => .cubic shared.anonymous

def Branch.anonymous (branch : Branch α) : Branch α :=
  { branch with shape := branch.shape.anonymous }

def Curve.anonymous (curve : Curve α) : Curve α := ⟨curve.branches.map Branch.anonymous⟩

def CurveFunction.anonymous : CurveFunction α → CurveFunction α
  | .exact curve => .exact curve.anonymous
  | .sampled curve => .sampled curve

def Compiled.anonymous (compiled : Compiled α) : Compiled α :=
  { compiled with function := compiled.function.anonymous }

/-! ### Nothing depends on serial numbers -/

@[simp] theorem Branch.eval_anonymous (branch : Branch α) (t : α) :
    branch.anonymous.eval t = branch.eval t := by
  obtain ⟨start, stop, slope | shared⟩ := branch <;> rfl

@[simp] theorem Branch.isFinite_anonymous (branch : Branch α) :
    branch.anonymous.isFinite = branch.isFinite := by
  obtain ⟨start, stop, slope | shared⟩ := branch <;> rfl

@[simp] theorem Branch.isCubic_anonymous (branch : Branch α) :
    branch.anonymous.isCubic = branch.isCubic := by
  obtain ⟨start, stop, slope | shared⟩ := branch <;> rfl

namespace Curve

theorem evalBranches_anonymous (t : α) (branches : List (Branch α)) :
    evalBranches t (branches.map Branch.anonymous) = evalBranches t branches := by
  induction branches with
  | nil => rfl
  | cons branch rest ih =>
    cases rest with
    | nil => exact branch.eval_anonymous t
    | cons next rest =>
      show (if t < branch.stop.x then branch.anonymous.eval t
        else evalBranches t ((next :: rest).map Branch.anonymous)) = _
      rw [ih, Branch.eval_anonymous]
      rfl

@[simp] theorem eval_anonymous (curve : Curve α) (t : α) :
    curve.anonymous.eval t = curve.eval t := by
  unfold eval anonymous
  rw [List.head?_map, List.getLast?_map]
  cases curve.branches.head? with
  | none => rfl
  | some first =>
    cases curve.branches.getLast? with
    | none => rfl
    | some last =>
      simp only [Option.map_some, evalBranches_anonymous]
      rfl

@[simp] theorem ranges_anonymous (curve : Curve α) : curve.anonymous.ranges = curve.ranges := by
  unfold ranges anonymous
  rw [List.map_map]
  rfl

@[simp] theorem hasCubic_anonymous (curve : Curve α) :
    curve.anonymous.hasCubic = curve.hasCubic := by
  unfold hasCubic anonymous
  rw [List.any_map]
  exact congrArg (List.any curve.branches) (funext Branch.isCubic_anonymous)

@[simp] theorem defect?_anonymous (curve : Curve α) :
    curve.anonymous.defect? = curve.defect? := by
  have first : (curve.anonymous.branches.find? fun branch => !branch.isFinite) =
      (curve.branches.find? fun branch => !branch.isFinite).map Branch.anonymous := by
    unfold anonymous
    rw [List.find?_map]
    exact congrArg (Option.map _) (congrFun (congrArg List.find?
      (funext fun branch => by simp [Function.comp_apply])) curve.branches)
  unfold defect?
  rw [first]
  cases curve.branches.find? fun branch => !branch.isFinite with
  | none => simp only [Option.map_none, eval_anonymous]
  | some branch => rfl

end Curve

namespace Script

theorem solverConstant_anonymous (index : Nat) (branch : Branch α) :
    solverConstant index branch.anonymous = solverConstant index branch := by
  obtain ⟨start, stop, slope | shared⟩ := branch <;> rfl

theorem branchValue_anonymous (index : Nat) (branch : Branch α) :
    branchValue index branch.anonymous = branchValue index branch := by
  obtain ⟨start, stop, slope | shared⟩ := branch <;> rfl

theorem solverConstants_anonymous (index : Nat) (branches : List (Branch α)) :
    solverConstants index (branches.map Branch.anonymous) = solverConstants index branches := by
  induction branches generalizing index with
  | nil => rfl
  | cons branch rest ih =>
    rw [List.map_cons, solverConstants, ih, solverConstant_anonymous]
    rfl

theorem branchResults_anonymous (index : Nat) (branches : List (Branch α)) :
    branchResults index (branches.map Branch.anonymous) = branchResults index branches := by
  induction branches generalizing index with
  | nil => rfl
  | cons branch rest ih =>
    cases rest with
    | nil =>
      rw [List.map_cons, List.map_nil, branchResults, branchResults, branchValue_anonymous]
    | cons next rest =>
      have tail := ih (index + 1)
      rw [List.map_cons] at tail
      rw [List.map_cons, List.map_cons, branchResults, branchResults, tail, branchValue_anonymous]
      rfl

end Script

theorem Curve.script_anonymous (curve : Curve α) : curve.anonymous.script = curve.script := by
  unfold Curve.script
  rw [Curve.hasCubic_anonymous]
  show (if curve.hasCubic then Script.solver ++ [Script.Stmt.blank] ++
      Script.solverConstants 0 (curve.branches.map Branch.anonymous) else []) ++
    Script.branchResults 0 (curve.branches.map Branch.anonymous) = _
  rw [Script.solverConstants_anonymous, Script.branchResults_anonymous]

theorem CurveFunction.source_anonymous [Numeral α] (function : CurveFunction α)
    (dialect : Script.Dialect) : function.anonymous.source dialect = function.source dialect := by
  cases function with
  | exact curve =>
    show Script.wrapLines dialect (Script.Stmt.allLines dialect curve.anonymous.script) = _
    rw [Curve.script_anonymous]
    rfl
  | sampled curve => rfl

theorem CurveFunction.render_anonymous [Numeral α] (function : CurveFunction α)
    (options : CompileOptions) :
    (function.render options).anonymous = function.anonymous.render options := by
  unfold CurveFunction.render Compiled.anonymous
  rw [source_anonymous, source_anonymous]

theorem chooseFunction_anonymous (options : CompileOptions) (curve : Curve α) :
    (chooseFunction options curve).map CurveFunction.anonymous =
      chooseFunction options curve.anonymous := by
  unfold chooseFunction
  rw [Curve.ranges_anonymous, show curve.anonymous.eval = curve.eval from
    funext curve.eval_anonymous]
  split
  · dsimp only
    split <;> rfl
  · rfl

/-! ### Kept solvers -/

section Pools

variable [LawfulSame α]

theorem Controls.eq_of_same {c d : Controls α} (same : c.same d = true) : c = d := by
  unfold Controls.same at same
  rw [Bool.and_eq_true, Bool.and_eq_true, Bool.and_eq_true] at same
  obtain ⟨⟨⟨x1, y1⟩, x2⟩, y2⟩ := same
  cases c
  cases d
  simp only at x1 y1 x2 y2
  rw [LawfulSame.eq_of_same x1, LawfulSame.eq_of_same y1, LawfulSame.eq_of_same x2,
    LawfulSame.eq_of_same y2]

/-- A solver is built from its own control points. -/
theorem UnitCubic.ofControls_toControls (cubic : UnitCubic α) :
    UnitCubic.ofControls cubic.toControls = .ok cubic := by
  unfold UnitCubic.ofControls
  rw [dif_pos cubic.x1_inUnit, dif_pos cubic.x2_inUnit]

/-- **A kept solver is the one that would be built.** -/
theorem SolverPool.get_anonymous (pool : SolverPool α) (c : Controls α) :
    (pool.get c).map (fun result => result.1.anonymous) =
      (UnitCubic.ofControls c).map fun solver => ⟨solver, 0⟩ := by
  unfold SolverPool.get
  cases found : pool.find? c with
  | some shared =>
    obtain ⟨entry, isEntry, rfl⟩ := Option.map_eq_some_iff.mp found
    have kept := List.find?_some isEntry
    have same : entry.solver.toControls = c := Controls.eq_of_same kept
    rw [← same, UnitCubic.ofControls_toControls]
    rfl
  | none => cases UnitCubic.ofControls c <;> rfl

/-- The branch of a joint, whatever the pool. -/
def anonymousBranch (index : Nat) (left right : Knot α) : Except (CurveError α) (Branch α) :=
  if isBackward left.point.x right.point.x then
    .error (.invalidCurve left.point.x (.backwardJoint index left.point.x right.point.x))
  else if left.handleOut.isZero && right.handleIn.isZero then
    .ok (.line left.point right.point)
  else
    (UnitCubic.ofControls (jointControls left right)).map fun solver =>
      .cubic left.point right.point ⟨solver, 0⟩

/-- The branches of consecutive joints, whatever the pool. -/
def anonymousBranches : Nat → List (Segment α × Segment α) →
    Except (CurveError α) (List (Branch α))
  | _, [] => .ok []
  | index, (left, right) :: rest =>
    (anonymousBranch index left.toKnot right.toKnot).bind fun branch =>
      (anonymousBranches (index + 1) rest).map (branch :: ·)

theorem buildBranch_anonymous (pool : SolverPool α) (index : Nat) (left right : Knot α) :
    (buildBranch pool index left right).map (fun result => result.1.anonymous) =
      anonymousBranch index left right := by
  unfold buildBranch anonymousBranch
  split
  · rfl
  · split
    · rfl
    · have solver := pool.get_anonymous (jointControls left right)
      calc ((pool.get (jointControls left right)).map fun result =>
              (Branch.cubic left.point right.point result.1, result.2)).map
              (fun result => result.1.anonymous)
          = ((pool.get (jointControls left right)).map fun result => result.1.anonymous).map
              (Branch.cubic left.point right.point) := by
            cases pool.get (jointControls left right) <;> rfl
        _ = _ := by
            rw [solver]
            cases UnitCubic.ofControls (jointControls left right) <;> rfl

theorem buildBranches_anonymous (pool : SolverPool α) (index : Nat)
    (joints : List (Segment α × Segment α)) :
    (buildBranches pool index joints).1.map (List.map Branch.anonymous) =
      anonymousBranches index joints := by
  induction joints generalizing pool index with
  | nil => rfl
  | cons joint rest ih =>
    obtain ⟨left, right⟩ := joint
    rw [anonymousBranches, ← buildBranch_anonymous pool]
    unfold buildBranches
    cases buildBranch pool index left.toKnot right.toKnot with
    | error error => rfl
    | ok result =>
      show ((buildBranches result.2 (index + 1) rest).1.map (result.1 :: ·)).map
          (List.map Branch.anonymous) =
        (anonymousBranches (index + 1) rest).map (result.1.anonymous :: ·)
      rw [← ih result.2]
      cases (buildBranches result.2 (index + 1) rest).1 <;> rfl

/-- The branches of a path, whatever the pool. -/
theorem pathBranches_anonymous (pool : SolverPool α) (path : Path α) :
    (pathBranches pool path).1.map (List.map Branch.anonymous) =
      if path.size < 2 then .error (.invalidCurve 0 (.tooFewAnchors path.size))
      else anonymousBranches 0 path.joints := by
  unfold pathBranches
  split
  · rfl
  · exact buildBranches_anonymous pool 0 path.joints

/-- A curve that is checked. -/
def checked (branches : List (Branch α)) : Except (CurveError α) (Curve α) :=
  match Curve.defect? ⟨branches⟩ with
  | some error => .error error
  | none => .ok ⟨branches⟩

theorem checked_anonymous (branches : List (Branch α)) :
    (checked branches).map Curve.anonymous = checked (branches.map Branch.anonymous) := by
  have defect : Curve.defect? ⟨branches.map Branch.anonymous⟩ = Curve.defect? ⟨branches⟩ :=
    Curve.defect?_anonymous ⟨branches⟩
  unfold checked
  rw [defect]
  cases Curve.defect? ⟨branches⟩ <;> rfl

theorem buildCurve_eq (pool : SolverPool α) (path : Path α) :
    (buildCurve pool path).1 = (pathBranches pool path.normalized).1.bind checked :=
  rfl

theorem buildCurve_anonymous (pool pool' : SolverPool α) (path : Path α) :
    (buildCurve pool path).1.map Curve.anonymous =
      (buildCurve pool' path).1.map Curve.anonymous := by
  have form : ∀ pool : SolverPool α, (buildCurve pool path).1.map Curve.anonymous =
      ((pathBranches pool path.normalized).1.map (List.map Branch.anonymous)).bind checked := by
    intro pool
    rw [buildCurve_eq]
    cases (pathBranches pool path.normalized).1 with
    | error error => rfl
    | ok branches => exact checked_anonymous branches
  rw [form, form, pathBranches_anonymous, pathBranches_anonymous]

variable [Numeral α]

/-- **What is compiled does not depend on the pool.** -/
theorem compile_anonymous (pool pool' : SolverPool α) (path : Path α) (options : CompileOptions) :
    (compile pool path options).1.map Compiled.anonymous =
      (compile pool' path options).1.map Compiled.anonymous := by
  have form : ∀ pool : SolverPool α, (compile pool path options).1.map Compiled.anonymous =
      (((buildCurve pool path).1.map Curve.anonymous).bind (chooseFunction options)).map
        (·.render options) := by
    intro pool
    show (((buildCurve pool path).1.bind (chooseFunction options)).map (·.render options)).map
      Compiled.anonymous = _
    cases (buildCurve pool path).1 with
    | error error => rfl
    | ok curve =>
      show ((chooseFunction options curve).map (·.render options)).map Compiled.anonymous =
        (chooseFunction options curve.anonymous).map (·.render options)
      rw [← chooseFunction_anonymous]
      cases chooseFunction options curve with
      | error error => rfl
      | ok function => exact congrArg Except.ok (function.render_anonymous options)
  rw [form, form, buildCurve_anonymous pool pool']

end Pools

/-! ### What a compile looks at -/

/-- The knots of a joint. -/
def jointKnots (joint : Segment α × Segment α) : Knot α × Knot α :=
  (joint.1.toKnot, joint.2.toKnot)

theorem pairs_eq_of_knots {segments segments' : List (Segment α)}
    (same : segments.map (·.toKnot) = segments'.map (·.toKnot)) :
    (Path.pairs segments).map jointKnots = (Path.pairs segments').map jointKnots := by
  induction segments generalizing segments' with
  | nil =>
    cases segments' with
    | nil => rfl
    | cons => cases same
  | cons segment rest ih =>
    cases segments' with
    | nil => cases same
    | cons segment' rest' =>
      rw [List.map_cons, List.map_cons, List.cons.injEq] at same
      obtain ⟨head, tail⟩ := same
      cases rest with
      | nil =>
        cases rest' with
        | nil => rfl
        | cons => cases tail
      | cons next rest =>
        cases rest' with
        | nil => cases tail
        | cons next' rest' =>
          have later := ih tail
          rw [List.map_cons, List.map_cons, List.cons.injEq] at tail
          rw [Path.pairs, Path.pairs, List.map_cons, List.map_cons, later, jointKnots, jointKnots,
            head, tail.1]

theorem buildBranches_eq_of_knots {pool : SolverPool α} {index : Nat}
    {joints joints' : List (Segment α × Segment α)}
    (same : joints.map jointKnots = joints'.map jointKnots) :
    buildBranches pool index joints = buildBranches pool index joints' := by
  induction joints generalizing pool index joints' with
  | nil =>
    cases joints' with
    | nil => rfl
    | cons => cases same
  | cons joint rest ih =>
    cases joints' with
    | nil => cases same
    | cons joint' rest' =>
      rw [List.map_cons, List.map_cons, List.cons.injEq] at same
      obtain ⟨head, tail⟩ := same
      obtain ⟨left, right⟩ := Prod.mk.inj head
      rw [buildBranches, buildBranches, left, right]
      split
      · rfl
      · rw [ih tail]

theorem normalized_knots {path other : Path α} (knots : path.knots = other.knots)
    (domain : path.domain = other.domain) : path.normalized.knots = other.normalized.knots := by
  unfold Path.normalized
  rw [domain]
  split
  · exact knots
  · have scaled := congrArg (List.map fun knot => knot.scale (1 / other.domain)) knots
    unfold Path.knots at scaled ⊢
    rw [List.map_map, List.map_map] at scaled ⊢
    exact scaled

/-- **A compile looks at the knots of a path and at its domain.** -/
theorem compile_eq_of_knots [Numeral α] {path other : Path α} (knots : path.knots = other.knots)
    (domain : path.domain = other.domain) (pool : SolverPool α) (options : CompileOptions) :
    compile pool path options = compile pool other options := by
  have same := normalized_knots knots domain
  have size : path.normalized.size = other.normalized.size := by
    have := congrArg List.length same
    unfold Path.knots at this
    rwa [List.length_map, List.length_map] at this
  have branches : pathBranches pool path.normalized = pathBranches pool other.normalized := by
    unfold pathBranches
    rw [size]
    split
    · rfl
    · exact buildBranches_eq_of_knots (pairs_eq_of_knots same)
  unfold compile buildCurve
  rw [branches]

end Easing
