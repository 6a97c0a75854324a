/-
**The fewest digits that read back, and how they are read.**

The decimals that are read as a given double form an interval around it. Among the decimals of
that interval with the fewest digits the nearest one is written; when two are equally near, a
`Tie` decides.

A value is compared with the decimals `n * 10 ^ place` after both are scaled to natural numbers.
With one, two, up to seventeen digits, only the two decimals next to the value can be in the
interval if any is, so only these are tried.

A decimal is read as the double nearest to it. Every finite double lies below `10 ^ 309`, and every
positive one above `10 ^ -324`, so a decimal far outside is infinite or zero without a computation.

* `Magnitude.shortest`: the digits and the place of the last one.
* `readFloat`: the double nearest to a decimal.
-/
import Easing.Decimal.Binary

namespace Easing.Decimal

/-- A positive decimal: `digits * 10 ^ place`. -/
structure Scaled where
  digits : Nat
  place : Int

/-- Which of two equally near decimals is taken. -/
inductive Tie where
  /-- The greater one. -/
  | up
  /-- The one with an even last digit. -/
  | even

/-- The number of decimal digits; none for zero. -/
def digitCount (n : Nat) : Nat :=
  if h : n = 0 then 0 else digitCount (n / 10) + 1
termination_by n
decreasing_by omega

/-- Drops zeros at the end of a decimal, moving its place. -/
def Scaled.trim (d : Scaled) : Scaled :=
  if h : d.digits ≠ 0 ∧ d.digits % 10 = 0 then Scaled.trim ⟨d.digits / 10, d.place + 1⟩ else d
termination_by d.digits
decreasing_by omega

namespace Magnitude

/-- Multiplies a quarter of a unit up to the common scale of the value and `10 ^ place`. -/
def scaleQuarters (m : Magnitude) (place : Int) (quarters : Nat) : Nat :=
  quarters * Nat.pow 2 (m.exponent - 2).toNat * Nat.pow 10 (-place).toNat

/-- The size of `10 ^ place` on that scale. -/
def scaleStep (m : Magnitude) (place : Int) : Nat :=
  Nat.pow 10 place.toNat * Nat.pow 2 (2 - m.exponent).toNat

/-- The exponent of the value's leading decimal digit. -/
def leading (m : Magnitude) : Int :=
  let value := m.scaleQuarters 0 (4 * m.units)
  let one := m.scaleStep 0
  if one ≤ value then (digitCount (value / one) : Int) - 1
  else -(digitCount ((one - 1) / value) : Int)

/-- The end of the interval of decimals that are read as this double, below, in quarters of a
unit. -/
def lowQuarters (m : Magnitude) : Nat := 4 * m.units - (if m.narrowBelow then 1 else 2)

/-- The end above, in quarters of a unit. -/
def highQuarters (m : Magnitude) : Nat := 4 * m.units + 2

/-- Whether `n * 10 ^ place` is read as this double. The ends belong to the interval when the
number of units is even. -/
def readsBack (m : Magnitude) (place : Int) (n : Nat) : Bool :=
  let decimal := n * m.scaleStep place
  let low := m.scaleQuarters place m.lowQuarters
  let high := m.scaleQuarters place m.highQuarters
  if m.units % 2 = 0 then low ≤ decimal && decimal ≤ high else low < decimal && decimal < high

/-- The nearest decimal with last digit at `place` that is read as this double, if there is
one. -/
def nearestAt (m : Magnitude) (tie : Tie) (place : Int) : Option Nat :=
  let step := m.scaleStep place
  let value := m.scaleQuarters place (4 * m.units)
  let below := value / step
  let above := below + 1
  match m.readsBack place below, m.readsBack place above with
  | false, false => none
  | true, false => some below
  | false, true => some above
  | true, true =>
    let down := value - below * step
    let up := above * step - value
    if down < up then some below
    else if up < down then some above
    else match tie with
      | .up => some above
      | .even => some (if below % 2 = 0 then below else above)

/-- The first hit when the number of digits grows from the given one, with so many more tries. -/
def search (m : Magnitude) (tie : Tie) (leading : Int) : Nat → Nat → Scaled
  | tries, count =>
    let place := leading + 1 - count
    match m.nearestAt tie place, tries with
    | some digits, _ => ⟨digits, place⟩
    | none, 0 => ⟨m.scaleQuarters place (4 * m.units) / m.scaleStep place, place⟩
    | none, tries + 1 => search m tie leading tries (count + 1)

/-- The shortest decimal that is read as this double, the nearest of the shortest ones. Seventeen
digits always suffice. -/
def shortest (m : Magnitude) (tie : Tie) : Scaled := (m.search tie m.leading 16 1).trim

end Magnitude

/-! ### Reading -/

/-- The exponent of the leading digit beyond which every decimal is read as infinite. -/
def greatestLeading : Int := 400

/-- The exponent of the leading digit below which every decimal is read as zero. -/
def leastLeading : Int := -400

/-- The double nearest to a decimal. -/
def Scaled.toFloat (decimal : Scaled) : Float :=
  let leading := decimal.place + (digitCount decimal.digits : Int) - 1
  if decimal.digits = 0 ∨ leading < leastLeading then 0.0
  else if greatestLeading < leading then 1.0 / 0.0
  else Float.ofScientific decimal.digits (decimal.place < 0) decimal.place.natAbs

/-- The double nearest to a decimal with a sign. Zero has a sign too. -/
def readFloat (negative : Bool) (decimal : Scaled) : Float :=
  if negative then -decimal.toFloat else decimal.toFloat

/-- The number that decimal digits stand for. -/
def ofDigits (digits : List Char) : Nat :=
  digits.foldl (fun n c => 10 * n + (c.toNat - '0'.toNat)) 0

end Easing.Decimal
