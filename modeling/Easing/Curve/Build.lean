/-
**From a path to its curve.**

The path is scaled to the unit domain, and each joint becomes a branch. A joint whose facing
handles have no length is a line. Any other is a cubic: its control points are the facing handle
positions, seen from the rectangle between its anchors.

* `buildBranches`: one branch per joint, from left to right; the first joint that fails decides.
* `Curve.defect?`: a coefficient or a value that is not finite.
* `buildCurve`: both, with the pool swept in between, also after a failure.
-/
import Easing.Curve.Basic
import Easing.Path.Basic

namespace Easing

variable {α : Type} [Scalar α]

/-- The control points of a joint, seen from the rectangle between its anchors. -/
def jointControls (left right : Knot α) : Controls α :=
  let c1 := left.handlePoint .outgoing
  let c2 := right.handlePoint .incoming
  let p0 := left.point
  let p1 := right.point
  { x1 := remap c1.x p0.x p1.x 0 1
    y1 := remap c1.y p0.y p1.y 0 1
    x2 := remap c2.x p0.x p1.x 0 1
    y2 := remap c2.y p0.y p1.y 0 1 }

/-- The joint does not lead to a greater x. -/
def isBackward (start stop : α) : Bool :=
  stop ≤ start || Scalar.isNaN start || Scalar.isNaN stop

/-- The branch of one joint, with the pool after it. -/
def buildBranch (pool : SolverPool α) (index : Nat) (left right : Knot α) :
    Except (CurveError α) (Branch α × SolverPool α) :=
  if isBackward left.point.x right.point.x then
    .error (.invalidCurve left.point.x (.backwardJoint index left.point.x right.point.x))
  else if left.handleOut.isZero && right.handleIn.isZero then
    .ok (.line left.point right.point, pool)
  else
    (pool.get (jointControls left right)).map fun (shared, pool) =>
      (.cubic left.point right.point shared, pool)

/-- The branches of consecutive joints, from the given index on. The pool holds what was built,
also when a joint fails. -/
def buildBranches : SolverPool α → Nat → List (Segment α × Segment α) →
    Except (CurveError α) (List (Branch α)) × SolverPool α
  | pool, _, [] => (.ok [], pool)
  | pool, index, (left, right) :: rest =>
    match buildBranch pool index left.toKnot right.toKnot with
    | .error error => (.error error, pool)
    | .ok (branch, pool) =>
      let (branches, pool) := buildBranches pool (index + 1) rest
      (branches.map (branch :: ·), pool)

/-- The branches of a path over the unit domain. -/
def pathBranches (pool : SolverPool α) (path : Path α) :
    Except (CurveError α) (List (Branch α)) × SolverPool α :=
  if path.size < 2 then (.error (.invalidCurve 0 (.tooFewAnchors path.size)), pool)
  else buildBranches pool 0 path.joints

/-- The steps of the sweep over the unit domain that checks a curve. -/
def sweepSteps : Nat := 100

/-- The inputs at which a curve is checked: both ends, then the whole sweep. -/
def probes : List α :=
  [0, 1] ++ (List.range (sweepSteps + 1)).map fun (i : Nat) => (i : α) / (sweepSteps : α)

/-- The first thing wrong with a curve: a coefficient that is not finite, or a value. -/
def Curve.defect? (curve : Curve α) : Option (CurveError α) :=
  match curve.branches.find? fun branch => !branch.isFinite with
  | some branch => some (.invalidCurve branch.start.x .infiniteJoint)
  | none =>
    probes.findSome? fun t =>
      let value := curve.eval t
      if Scalar.isFinite value then none else some (.invalidCurve t (.infiniteValue value))

/-- The curve of a path. Solvers of joints that are gone leave the pool, also when the path does
not compile. -/
def buildCurve (pool : SolverPool α) (path : Path α) :
    Except (CurveError α) (Curve α) × SolverPool α :=
  let (branches, pool) := pathBranches pool path.normalized
  let curve := branches.bind fun branches =>
    let curve : Curve α := ⟨branches⟩
    match curve.defect? with
    | some error => .error error
    | none => .ok curve
  (curve, pool.sweep)

end Easing
