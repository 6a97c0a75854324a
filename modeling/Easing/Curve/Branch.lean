/-
**Branches: single joints of a compiled curve.**

A branch joins two anchors by a straight line or by a unit cubic that is stretched over the
rectangle between them.

* `remap`: the linear map between two intervals.
* `Branch`, `Branch.eval`: the joints, and their values.
-/
import Easing.SolverPool
import Easing.Plane

namespace Easing

/-- The linear map that takes `[inLow, inHigh]` to `[outLow, outHigh]`, applied to `value`. It goes
on outside the first interval. An interval without width is taken to `outLow`. -/
def remap {α : Type} [Scalar α] (value inLow inHigh outLow outHigh : α) : α :=
  if inHigh - inLow == 0 then outLow
  else (value - inLow) * (outHigh - outLow) / (inHigh - inLow) + outLow

/-- The form of a joint between its anchors. -/
inductive Shape (α : Type) [Scalar α] where
  /-- A line, with its slope. -/
  | line (slope : α)
  /-- A cubic, solved in the unit square. -/
  | cubic (shared : SharedSolver α)

/-- One joint of a compiled curve. -/
structure Branch (α : Type) [Scalar α] where
  start : Point α
  stop : Point α
  shape : Shape α

namespace Branch

variable {α : Type} [Scalar α]

/-- The straight joint between two anchors. -/
def line (start stop : Point α) : Branch α :=
  ⟨start, stop, .line ((stop.y - start.y) / (stop.x - start.x))⟩

/-- The curved joint between two anchors. -/
def cubic (start stop : Point α) (shared : SharedSolver α) : Branch α :=
  ⟨start, stop, .cubic shared⟩

/-- The solver of a curved joint. -/
def solver? (branch : Branch α) : Option (SharedSolver α) :=
  match branch.shape with
  | .line _ => none
  | .cubic shared => some shared

/-- The joint is curved. -/
def isCubic (branch : Branch α) : Bool := branch.solver?.isSome

/-- The anchors, and the slope of a line, are finite. -/
def isFinite (branch : Branch α) : Bool :=
  Scalar.isFinite branch.start.x && Scalar.isFinite branch.start.y &&
    Scalar.isFinite branch.stop.x && Scalar.isFinite branch.stop.y &&
    match branch.shape with
    | .line slope => Scalar.isFinite slope
    | .cubic _ => true

/-- The value of the joint at `t`. -/
def eval (branch : Branch α) (t : α) : α :=
  match branch.shape with
  | .line slope => slope * (t - branch.start.x) + branch.start.y
  | .cubic shared =>
    let u := (t - branch.start.x) / (branch.stop.x - branch.start.x)
    remap (shared.solver.eval u) 0 1 branch.start.y branch.stop.y

end Branch

end Easing
