/-
**Decimals with a fixed number of places.**

The exact value of the double is rounded once, to the nearest decimal with that many places; a
value half way between two goes to the one with an even last digit.

* `roundDiv`: the nearest natural number to a quotient.
* `writePlaces`: the text, which keeps the minus of a negative number that rounds to zero.
-/
import Easing.Decimal.Layout

namespace Easing.Decimal

/-- The natural number nearest to `numerator / denominator`, the even one of two. -/
def roundDiv (numerator denominator : Nat) : Nat :=
  let below := numerator / denominator
  let twice := 2 * (numerator % denominator)
  if twice < denominator then below
  else if denominator < twice then below + 1
  else if below % 2 = 0 then below else below + 1

/-- The value in units of `10 ^ -places`, rounded. -/
def Magnitude.roundPlaces (m : Magnitude) (places : Nat) : Nat :=
  roundDiv (m.units * Nat.pow 2 m.exponent.toNat * Nat.pow 10 places)
    (Nat.pow 2 (-m.exponent).toNat)

/-- So many units of `10 ^ -places`, written with all places. -/
def placesText (units places : Nat) : String :=
  let whole := toString (units / Nat.pow 10 places)
  if places = 0 then whole
  else
    let fraction := toString (units % Nat.pow 10 places)
    whole ++ "." ++ Layout.zeros (places - fraction.length) ++ fraction

/-- The text of a double with so many places. -/
def writePlaces (places : Nat) (value : Float) : String :=
  match Double.ofFloat value with
  | .nan => plainLayout.nan
  | .infinite true => plainLayout.negativeInfinity
  | .infinite false => plainLayout.infinity
  | .zero negative => Layout.sign negative ++ placesText 0 places
  | .finite negative magnitude =>
    Layout.sign negative ++ placesText (magnitude.roundPlaces places) places

end Easing.Decimal
