/-
**The exact value of a double.**

A double that is neither zero, infinite nor NaN is a whole number of units, each unit a power of
two: `units * 2 ^ exponent`. Everything the decimal forms need is a comparison of such values with
decimals, and those are comparisons of natural numbers.

* `Double.ofBits`: the kinds of doubles, read off the bit pattern.
* `Magnitude`: the absolute value of a finite nonzero double, with the width of the gap below it.
-/

namespace Easing.Decimal

/-- The absolute value of a finite nonzero double. -/
structure Magnitude where
  /-- The value in units of `2 ^ exponent`. -/
  units : Nat
  /-- The power of two of one unit. -/
  exponent : Int
  /-- The next smaller double is half a unit away, not a whole one: the value is the least of its
  power of two. -/
  narrowBelow : Bool

/-- What a double is. -/
inductive Double where
  | nan
  | infinite (negative : Bool)
  | zero (negative : Bool)
  | finite (negative : Bool) (magnitude : Magnitude)

namespace Double

/-- The double with the given pattern: a sign bit, eleven bits of exponent, fifty-two bits of
fraction. -/
def ofBits (bits : Nat) : Double :=
  let negative := bits / Nat.pow 2 63 % 2 == 1
  let biased : Nat := bits / Nat.pow 2 52 % Nat.pow 2 11
  let fraction : Nat := bits % Nat.pow 2 52
  if biased = 2047 then
    if fraction = 0 then .infinite negative else .nan
  else if biased = 0 then
    if fraction = 0 then .zero negative else .finite negative ⟨fraction, -1074, false⟩
  else
    .finite negative ⟨Nat.pow 2 52 + fraction, (biased : Int) - 1075, fraction == 0 && biased != 1⟩

/-- The kind and exact value of a double. -/
def ofFloat (value : Float) : Double := ofBits value.toBits.toNat

end Double

end Easing.Decimal
