/-
**How a decimal is laid out.**

A `Layout` holds the choices of one written form: where an exponent mark begins, whether a whole
number has a fraction digit, the words for values without digits. `Layout.write` puts the shortest
digits of a double into that form.
-/
import Easing.Decimal.Shortest
import Easing.Scalar

namespace Easing.Decimal

/-- The choices of one written form of doubles. -/
structure Layout where
  /-- Which of two equally near shortest decimals is written. -/
  tie : Tie
  /-- The exponents of the leading digit that are written without an exponent mark; all of them
  when there is no range. -/
  positional : Option (Int × Int)
  /-- A whole number is followed by `.0`. -/
  wholeFraction : Bool
  /-- The word for NaN. -/
  nan : String
  /-- The words for infinity and minus infinity. -/
  infinity : String
  negativeInfinity : String

namespace Layout

/-- Zeros, so many. -/
def zeros (count : Nat) : String := String.ofList (List.replicate count '0')

/-- A decimal written out, without an exponent mark. -/
def positionalText (layout : Layout) (decimal : Scaled) : String :=
  let digits := toString decimal.digits
  if 0 ≤ decimal.place then
    digits ++ zeros decimal.place.toNat ++ (if layout.wholeFraction then ".0" else "")
  else
    let fraction := (-decimal.place).toNat
    if fraction < digits.length then
      let whole := digits.length - fraction
      String.ofList (digits.toList.take whole) ++ "." ++ String.ofList (digits.toList.drop whole)
    else
      "0." ++ zeros (fraction - digits.length) ++ digits

/-- A decimal with one digit before the point and an exponent mark with its sign. -/
def exponentText (decimal : Scaled) (leading : Int) : String :=
  let mark := (if leading < 0 then "e-" else "e+") ++ toString leading.natAbs
  match (toString decimal.digits).toList with
  | [] => mark
  | [digit] => String.ofList [digit] ++ mark
  | digit :: rest => String.ofList [digit] ++ "." ++ String.ofList rest ++ mark

/-- The text of a positive decimal. -/
def decimalText (layout : Layout) (decimal : Scaled) : String :=
  let leading := decimal.place + (digitCount decimal.digits : Int) - 1
  match layout.positional with
  | some (low, high) =>
    if low ≤ leading && leading ≤ high then layout.positionalText decimal
    else exponentText decimal leading
  | none => layout.positionalText decimal

/-- The minus of a negative number. -/
def sign (negative : Bool) : String := if negative then "-" else ""

/-- The text of a double. -/
def write (layout : Layout) (value : Float) : String :=
  match Double.ofFloat value with
  | .nan => layout.nan
  | .infinite true => layout.negativeInfinity
  | .infinite false => layout.infinity
  | .zero negative => sign negative ++ layout.positionalText ⟨0, 0⟩
  | .finite negative magnitude =>
    sign negative ++ layout.decimalText (magnitude.shortest layout.tie)

end Layout

/-- Numbers in messages and in generated source: no exponent mark at any size, no fraction digit
on whole numbers; of two shortest decimals that are equally near the greater one. -/
def plainLayout : Layout where
  tie := .up
  positional := none
  wholeFraction := false
  nan := "NaN"
  infinity := "inf"
  negativeInfinity := "-inf"

/-- Numbers in snapshots: an exponent mark outside `10⁻⁵` to `10¹⁵`, a fraction digit on whole
numbers, `null` for what has no digits; of two shortest decimals that are equally near the even
one. -/
def snapshotLayout : Layout where
  tie := .even
  positional := some (-5, 15)
  wholeFraction := true
  nan := "null"
  infinity := "null"
  negativeInfinity := "null"

end Easing.Decimal

namespace Easing

instance : Numeral Float where
  plain := Decimal.plainLayout.write
  snapshot := Decimal.snapshotLayout.write

end Easing
