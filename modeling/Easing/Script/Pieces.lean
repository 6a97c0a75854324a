/-
**The script of a compiled curve.**

The solver comes first, when some joint is curved, with one curve for each curved joint; then a
guarded result for each joint in order, the last one without a guard.
-/
import Easing.Script.Solver
import Easing.Script.Wrap
import Easing.Curve.Basic

namespace Easing

namespace Script

variable {α : Type} [Scalar α]

/-- The name of the solver of the joint at an index. -/
def solverName (index : Nat) : String := "curve" ++ toString index

/-- The name for the solver of one joint, when it is curved. -/
def solverConstant (index : Nat) (branch : Branch α) : List (Stmt α) :=
  match branch.solver? with
  | some shared =>
    let c := shared.solver.toControls
    [ .simple (.constant (solverName index) none
        (.call "b" [.literal c.x1, .literal c.y1, .literal c.x2, .literal c.y2])) ]
  | none => []

/-- The value of one joint at `t`. -/
def branchValue (index : Nat) (branch : Branch α) : Expr α :=
  let x0 := .literal branch.start.x
  let y0 := .literal branch.start.y
  let x1 := .literal branch.stop.x
  let y1 := .literal branch.stop.y
  let offset := sub (var "t") x0
  match branch.shape with
  | .line _ => add (mul (div (sub y1 y0) (sub x1 x0)) offset) y0
  | .cubic _ =>
    .call "map" [.call (solverName index) [div offset (sub x1 x0)], whole 0, whole 1, y0, y1]

/-- The names for the solvers of the joints from an index on. -/
def solverConstants : Nat → List (Branch α) → List (Stmt α)
  | _, [] => []
  | index, branch :: rest => solverConstant index branch ++ solverConstants (index + 1) rest

/-- The results of the joints from an index on. -/
def branchResults : Nat → List (Branch α) → List (Stmt α)
  | _, [] => []
  | index, [branch] => [.simple (.result (branchValue index branch))]
  | index, branch :: next :: rest =>
    .guarded (.binary .less (var "t") (.literal branch.stop.x))
        (.result (branchValue index branch)) ::
      branchResults (index + 1) (next :: rest)

end Script

namespace Curve

variable {α : Type} [Scalar α]

/-- The script of a curve: the body of a function of `t`. -/
def script (curve : Curve α) : List (Script.Stmt α) :=
  (if curve.hasCubic then Script.solver ++ [.blank] ++ Script.solverConstants 0 curve.branches
    else []) ++
    Script.branchResults 0 curve.branches

/-- The text of the body. -/
def bodyText [Numeral α] (curve : Curve α) (dialect : Script.Dialect) : String :=
  Script.text dialect curve.script

/-- The text of the whole function. -/
def source [Numeral α] (curve : Curve α) (dialect : Script.Dialect) : String :=
  Script.wrapLines dialect (Script.Stmt.allLines dialect curve.script)

end Curve

end Easing
