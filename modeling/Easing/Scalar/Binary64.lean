/-
**Doubles as scalars.**

The operations are those of the IEEE double format. Two doubles are one value when their bit
patterns are equal, all NaNs having one pattern.

* `Decimal.Magnitude.wholeUnits`: the whole number nearest to a value with a fraction.
* `roundHalfAway`: the rounding of doubles to whole numbers.
-/
import Easing.Scalar
import Easing.Decimal.Binary

namespace Easing

/-- The whole number nearest to a value whose unit is a half or less, a half going up. -/
def Decimal.Magnitude.wholeUnits (m : Decimal.Magnitude) : Nat :=
  let places := (-m.exponent).toNat
  (2 * m.units + Nat.pow 2 places) / Nat.pow 2 (places + 1)

/-- The nearest whole number, a half going away from zero; zero keeps its sign. -/
def roundHalfAway (value : Float) : Float :=
  match Decimal.Double.ofFloat value with
  | .finite negative m =>
    if 0 ≤ m.exponent then value
    else
      let whole := Float.ofNat m.wholeUnits
      if negative then -whole else whole
  | _ => value

instance : Scalar Float where
  natCast := Float.ofNat
  decideLt := fun a b => inferInstanceAs (Decidable (a < b))
  decideLe := fun a b => inferInstanceAs (Decidable (a ≤ b))
  sqrt := Float.sqrt
  abs := Float.abs
  round := roundHalfAway
  floorNat a := a.toUInt64.toNat
  nan := 0.0 / 0.0
  isNaN := Float.isNaN
  isInfinite := Float.isInf
  same a b := a.toBits == b.toBits

end Easing
