/-
**What can be wrong with a curve.**

Each cause carries the values that its message shows; `CurveError.message` is the only place where
the wording is.
-/
import Easing.Scalar

namespace Easing

/-- Why a compiled curve is not accepted. -/
inductive Defect (α : Type) where
  /-- There are not two anchors. -/
  | tooFewAnchors (found : Nat)
  /-- The joint of this index does not lead to a greater x. -/
  | backwardJoint (index : Nat) (start stop : α)
  /-- A joint has a coefficient that is not finite. -/
  | infiniteJoint
  /-- The curve has a value that is not finite. -/
  | infiniteValue (value : α)
  /-- A sample is not finite. -/
  | infiniteSample

/-- Why a solver, a path or a compile refuses its input. -/
inductive CurveError (α : Type) where
  /-- A control point of a unit cubic lies outside the unit interval in x. -/
  | controlsOutside (x1 x2 : α)
  /-- A point cannot be inserted into a path without segments. -/
  | emptyPath
  /-- The compiled curve has a defect at `t`. -/
  | invalidCurve (t : α) (defect : Defect α)

variable {α : Type} [Numeral α]

/-- The wording of a defect. -/
def Defect.message : Defect α → String
  | .tooFewAnchors found => "a curve needs at least two anchors, found " ++ toString found
  | .backwardJoint index start stop =>
    "joint " ++ toString index ++ " spans x " ++ Numeral.plain start ++ " to " ++
      Numeral.plain stop
  | .infiniteJoint => "joint has non-finite coefficients"
  | .infiniteValue value => "evaluated to " ++ Numeral.plain value
  | .infiniteSample => "sampled value is not finite"

/-- The wording of an error. -/
def CurveError.message : CurveError α → String
  | .controlsOutside x1 x2 =>
    "control point x must lie in [0, 1] (x1 = " ++ Numeral.plain x1 ++ ", x2 = " ++
      Numeral.plain x2 ++ ")"
  | .emptyPath => "path has no segments"
  | .invalidCurve t defect =>
    "compiled function failed validation at t = " ++ Numeral.plain t ++ ": " ++ defect.message

end Easing
