/-
**Compiled curves: chains of guarded branches.**

A branch applies left of its end, the last branch everywhere else.
-/
import Easing.Curve.Branch

namespace Easing

/-- A function of one variable, in pieces. -/
structure Curve (α : Type) [Scalar α] where
  branches : List (Branch α)

namespace Curve

variable {α : Type} [Scalar α]

/-- A joint is curved. -/
def hasCubic (curve : Curve α) : Bool := curve.branches.any (·.isCubic)

/-- The x interval of every branch. -/
def ranges (curve : Curve α) : List (α × α) :=
  curve.branches.map fun branch => (branch.start.x, branch.stop.x)

/-- The value at `t` of the first branch that ends beyond `t`, or of the last one. -/
def evalBranches (t : α) : List (Branch α) → α
  | [] => Scalar.nan
  | [branch] => branch.eval t
  | branch :: next :: rest =>
    if t < branch.stop.x then branch.eval t else evalBranches t (next :: rest)

/-- The value at `t`. Outside the anchors the outer joints go on; an infinite `t` is moved to the
nearest anchor, and at NaN there is no value. -/
def eval (curve : Curve α) (t : α) : α :=
  match curve.branches.head?, curve.branches.getLast? with
  | some first, some last =>
    if Scalar.isNaN t then Scalar.nan
    else
      let t := if Scalar.isInfinite t then Scalar.clamp first.start.x last.stop.x t else t
      evalBranches t curve.branches
  | _, _ => Scalar.nan

end Curve

end Easing
