/-
**The script of the unit cubic solver.**

The script does what `UnitCubic.eval` does, with the same constants, tests and order of operations.
It is written into a script once, before the curves that use it.
-/
import Easing.Script.Printer
import Easing.UnitCubic

namespace Easing.Script

variable {α : Type} [Scalar α]

/-! ### Short forms -/

/-- A whole number. -/
def whole (n : Nat) : Expr α := .literal (n : α)

/-- A variable. -/
def var (name : String) : Expr α := .variable name

/-- A sum. -/
def add (left right : Expr α) : Expr α := .binary .plus left right

/-- A difference. -/
def sub (left right : Expr α) : Expr α := .binary .minus left right

/-- A product. -/
def mul (left right : Expr α) : Expr α := .binary .times left right

/-- A quotient. -/
def div (left right : Expr α) : Expr α := .binary .divide left right

/-! ### The linear map and the polynomial -/

/-- The map of a value between intervals. -/
def mapBody : Expr α :=
  add
    (div (mul (sub (var "v") (var "inMin")) (sub (var "outMax") (var "outMin")))
      (sub (var "inMax") (var "inMin")))
    (var "outMin")

/-- The coefficient of the cube. -/
def coeffABody : Expr α := add (sub (whole 1) (mul (whole 3) (var "a2"))) (mul (whole 3) (var "a1"))

/-- The coefficient of the square. -/
def coeffBBody : Expr α := sub (mul (whole 3) (var "a2")) (mul (whole 6) (var "a1"))

/-- The coefficient of the parameter itself. -/
def coeffCBody : Expr α := mul (whole 3) (var "a1")

/-- The coefficient of the cube, for the inner control values `a1` and `a2`. -/
def coeffA : Expr α := .call "coeffA" [var "a1", var "a2"]

/-- The coefficient of the square, for the same values. -/
def coeffB : Expr α := .call "coeffB" [var "a1", var "a2"]

/-- The coefficient of the parameter itself; `a2` has no part in it. -/
def coeffC : Expr α := .call "coeffC" [var "a1"]

/-- The value of the polynomial. -/
def bezierBody : Expr α :=
  mul (add (mul (add (mul coeffA (var "t")) coeffB) (var "t")) coeffC) (var "t")

/-- The slope of the polynomial. -/
def slopeBody : Expr α :=
  add
    (add (mul (mul (mul (whole 3) coeffA) (var "t")) (var "t"))
      (mul (mul (whole 2) coeffB) (var "t")))
    coeffC

/-- The map between intervals, and the coefficients and the value and the slope of a cubic. -/
def polynomials : List (Stmt α) :=
  [ .simple (.constant "TABLE_SIZE" none (whole (UnitCubic.intervals + 1))),
    .simple (.constant "TABLE_STEP" none (div (whole 1) (sub (var "TABLE_SIZE") (whole 1)))),
    .longFunction "map" ["v", "inMin", "inMax", "outMin", "outMax"] mapBody,
    .simple (.constant "coeffA" none (.function ["a1", "a2"] coeffABody)),
    .simple (.constant "coeffB" none (.function ["a1", "a2"] coeffBBody)),
    .simple (.constant "coeffC" none (.function ["a1"] coeffCBody)),
    .longFunction "bezierAt" ["t", "a1", "a2"] bezierBody,
    .longFunction "slopeAt" ["t", "a1", "a2"] slopeBody ]

/-! ### The search for the parameter -/

/-- The coordinate in x at a parameter. -/
def xAt (t : Expr α) : Expr α := .call "bezierAt" [t, var "x1", var "x2"]

/-- The slope in x at a parameter. -/
def xSlope (t : Expr α) : Expr α := .call "slopeAt" [t, var "x1", var "x2"]

/-- The interval of the table that holds x, and the guess in it. -/
def bracketing : List (Stmt α) :=
  let x := var "x"
  let current := var "current"
  let lastKnot := sub (var "TABLE_SIZE") (whole 1)
  let entry := .item (var "table") current
  let nextEntry := .item (var "table") (add current (whole 1))
  [ .simple (.variable "current" (whole 1)),
    .loopOne
      (.binary .and (.binary .unequal current lastKnot) (.binary .atMost entry x))
      (.increment "current"),
    .simple (.decrement "current"),
    .simple (.constant "start" none (mul current (var "TABLE_STEP"))),
    .simple (.constant "span" none (sub nextEntry entry)),
    .simple (.constant "guess" none
      (add (var "start")
        (mul
          (.choose (.binary .unequal (var "span") (whole 0)) (div (sub x entry) (var "span"))
            (whole 0))
          (var "TABLE_STEP")))),
    .simple (.constant "initialSlope" none (xSlope (var "guess"))) ]

/-- Newton's method, where the curve is steep enough. -/
def newton : Stmt α :=
  let t := var "t"
  .block (.binary .atLeast (var "initialSlope") (.literal UnitCubic.newtonSlope))
    [ .simple (.variable "t" (var "guess")),
      .count "i" (whole UnitCubic.newtonSteps)
        [ .simple (.constant "slope" none (xSlope t)),
          .guarded (.binary .equal (var "slope") (whole 0)) (.result t),
          .simple (.subtract "t" (div (sub (xAt t) (var "x")) (var "slope"))) ],
      .simple (.result t) ]

/-- The guess where the curve is flat, and else the halving of the interval. -/
def bisection : List (Stmt α) :=
  let t := var "t"
  let lo := var "lo"
  let hi := var "hi"
  [ .guarded (.binary .equal (var "initialSlope") (whole 0)) (.result (var "guess")),
    .simple (.variable "lo" (var "start")),
    .simple (.variable "hi" (add (var "start") (var "TABLE_STEP"))),
    .simple (.variable "t" lo),
    .simple (.variable "i" (whole 0)),
    .loopAfter
      [ .simple (.assign "t" (add lo (div (sub hi lo) (whole 2)))),
        .simple (.constant "error" none (sub (xAt t) (var "x"))),
        .either (.binary .greater (var "error") (whole 0)) (.assign "hi" t) (.assign "lo" t),
        .guarded
          (.binary .atMost (.builtin .abs [var "error"]) (.literal UnitCubic.bisectTolerance))
          .leave ]
      (.binary .less (.incremented "i") (whole UnitCubic.bisectSteps)),
    .simple (.result t) ]

/-! ### The solver -/

/-- The search, as the body of a function of x. -/
def searchBody : List (Stmt α) := bracketing ++ [newton] ++ bisection

/-- The value of a curve at x. -/
def curveBody : Expr α :=
  let x := var "x"
  .choose (.binary .or (.binary .equal x (whole 0)) (.binary .equal x (whole 1))) x
    (.call "bezierAt" [.call "tForX" [x], var "y1", var "y2"])

/-- The identity, or the table of a curve, the search in it and the curve. -/
def makerBody : List (Stmt α) :=
  [ .guarded
      (.binary .and (.binary .equal (var "x1") (var "y1")) (.binary .equal (var "x2") (var "y2")))
      (.result (.function ["x"] (var "x"))),
    .simple (.constant "table" (some .numbers) (.array [])),
    .countOne "i" (var "TABLE_SIZE") (.push "table" (xAt (mul (var "i") (var "TABLE_STEP")))),
    .localFunction "tForX" ["x"] searchBody,
    .simple (.result (.function ["x"] curveBody)) ]

/-- The function that makes a curve from its control points. -/
def maker : Stmt α := .function "b" ["x1", "y1", "x2", "y2"] .numberFunction makerBody

/-- The script of the solver. -/
def solver : List (Stmt α) := polynomials ++ [maker]

/-- The text of the solver. -/
def solverText [Numeral α] (dialect : Dialect) : String := text dialect (solver : List (Stmt α))

end Easing.Script
