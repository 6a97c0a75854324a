/-
**Unit cubics, evaluated as functions of x.**

A unit cubic is the Bézier curve from `(0, 0)` to `(1, 1)` with the control points `(x1, y1)` and
`(x2, y2)`. To find its y at a given x, the parameter `t` with `X t = x` is searched for:

* a scan of the values of X at the knots `0, 0.1, …, 1` finds the interval that holds x, and a
  linear guess inside it (`bracket`, `guess`);
* where the curve is steep enough at the guess, four steps of Newton's method follow (`newton`);
  where it is flat the guess stands; between the two, at most ten halvings of the interval
  (`bisect`).

Both searches have a fixed bound, so `solve` is total and its cost does not depend on the input.
-/
import Easing.Error

namespace Easing

namespace Cubic

variable {α : Type} [Scalar α]

/-- The coefficient of `t³` of the coordinate with inner control values `a1` and `a2`. -/
def coeffA (a1 a2 : α) : α := 1 - 3 * a2 + 3 * a1

/-- The coefficient of `t²`. -/
def coeffB (a1 a2 : α) : α := 3 * a2 - 6 * a1

/-- The coefficient of `t`. -/
def coeffC (a1 : α) : α := 3 * a1

/-- The coordinate at parameter `t`, in Horner form. -/
def value (t a1 a2 : α) : α := ((coeffA a1 a2 * t + coeffB a1 a2) * t + coeffC a1) * t

/-- The derivative of the coordinate at parameter `t`. -/
def slope (t a1 a2 : α) : α :=
  3 * coeffA a1 a2 * t * t + 2 * coeffB a1 a2 * t + coeffC a1

end Cubic

/-- The four coordinates of the inner control points. -/
structure Controls (α : Type) where
  x1 : α
  y1 : α
  x2 : α
  y2 : α

namespace Controls

variable {α : Type} [Scalar α]

/-- Two quadruples are one value, coordinate by coordinate. Zero and minus zero differ. -/
def same (c d : Controls α) : Bool :=
  Scalar.same c.x1 d.x1 && Scalar.same c.y1 d.y1 && Scalar.same c.x2 d.x2 && Scalar.same c.y2 d.y2

/-- Both control points lie on the diagonal, so the curve is the identity. -/
def onDiagonal (c : Controls α) : Bool := c.x1 == c.y1 && c.x2 == c.y2

end Controls

/-- A value of the unit interval, ends included. -/
def InUnit {α : Type} [Scalar α] (a : α) : Prop := 0 ≤ a ∧ a ≤ 1

instance {α : Type} [Scalar α] (a : α) : Decidable (InUnit a) :=
  inferInstanceAs (Decidable (_ ∧ _))

/-- A Bézier curve from `(0, 0)` to `(1, 1)` on which x never decreases. -/
structure UnitCubic (α : Type) [Scalar α] extends Controls α where
  x1_inUnit : InUnit x1
  x2_inUnit : InUnit x2

namespace UnitCubic

variable {α : Type} [Scalar α]

/-- The intervals between knots. -/
def intervals : Nat := 10

/-- The parameter from one knot to the next. -/
def step : α := 1 / 10

/-- Steps of Newton's method. -/
def newtonSteps : Nat := 4

/-- The least slope at which Newton's method is used. -/
def newtonSlope : α := 0.001

/-- The error in x at which halving stops. -/
def bisectTolerance : α := 1e-7

/-- The greatest number of halvings. -/
def bisectSteps : Nat := 10

/-- The unit cubic with the given control points. The x coordinates must lie in the unit interval;
the y coordinates are free. -/
def ofControls (c : Controls α) : Except (CurveError α) (UnitCubic α) :=
  if h1 : InUnit c.x1 then
    if h2 : InUnit c.x2 then .ok { c with x1_inUnit := h1, x2_inUnit := h2 }
    else .error (.controlsOutside c.x1 c.x2)
  else .error (.controlsOutside c.x1 c.x2)

/-- The curve is the identity. -/
def isIdentity (cubic : UnitCubic α) : Bool := cubic.onDiagonal

/-- The x coordinate at parameter `t`. -/
def xAt (cubic : UnitCubic α) (t : α) : α := Cubic.value t cubic.x1 cubic.x2

/-- The y coordinate at parameter `t`. -/
def yAt (cubic : UnitCubic α) (t : α) : α := Cubic.value t cubic.y1 cubic.y2

/-- The derivative of the x coordinate at parameter `t`. -/
def xSlope (cubic : UnitCubic α) (t : α) : α := Cubic.slope t cubic.x1 cubic.x2

/-- The parameter of a knot. -/
def knot (index : Nat) : α := (index : α) * step

/-- The x coordinate at a knot. -/
def knotX (cubic : UnitCubic α) (index : Nat) : α := cubic.xAt (knot index)

/-- The first index from `index` on, at most the last knot, whose x is beyond the given one; `left`
knots are still to be looked at. -/
def firstBeyond (cubic : UnitCubic α) (x : α) (index : Nat) : Nat → Nat
  | 0 => index
  | left + 1 =>
    if cubic.knotX index ≤ x then firstBeyond cubic x (index + 1) left else index

/-- The index of the knot that begins the interval holding `x`. -/
def bracket (cubic : UnitCubic α) (x : α) : Nat :=
  cubic.firstBeyond x 1 (intervals - 1) - 1

/-- The parameter that linear interpolation in the interval gives. -/
def guess (cubic : UnitCubic α) (x : α) (index : Nat) : α :=
  let span := cubic.knotX (index + 1) - cubic.knotX index
  let fraction := if span != 0 then (x - cubic.knotX index) / span else 0
  knot index + fraction * step

/-- Newton's method for `X t = x`. It stops where the curve is flat. -/
def newton (cubic : UnitCubic α) (x : α) : Nat → α → α
  | 0, t => t
  | steps + 1, t =>
    let slope := cubic.xSlope t
    if slope == 0 then t else newton cubic x steps (t - (cubic.xAt t - x) / slope)

/-- Halves `[low, high]` for `X t = x`, so many more times at most after the first. The last
middle is returned. -/
def bisect (cubic : UnitCubic α) (x : α) : Nat → α → α → α
  | steps, low, high =>
    let middle := low + (high - low) / 2
    let error := cubic.xAt middle - x
    if Scalar.abs error ≤ bisectTolerance then middle
    else match steps with
      | 0 => middle
      | steps + 1 =>
        if 0 < error then bisect cubic x steps low middle else bisect cubic x steps middle high

/-- The parameter whose x is the given one. -/
def solve (cubic : UnitCubic α) (x : α) : α :=
  let index := cubic.bracket x
  let start := knot index
  let guess := cubic.guess x index
  let slope := cubic.xSlope guess
  if newtonSlope ≤ slope then cubic.newton x newtonSteps guess
  else if slope == 0 then guess
  else cubic.bisect x (bisectSteps - 1) start (start + step)

/-- The y of the curve at the given x. The ends are exact, and so is the identity. -/
def eval (cubic : UnitCubic α) (x : α) : α :=
  if cubic.isIdentity then x
  else if x == 0 || x == 1 then x
  else cubic.yAt (cubic.solve x)

end UnitCubic

end Easing
