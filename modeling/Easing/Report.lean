/-
**The report of a compile.**

The sources come first, then how the function is given and how long the compile took, then its
values at eleven inputs.
-/
import Easing.Compiled
import Easing.Scalar.Binary64
import Easing.Decimal.Places

namespace Easing

namespace Report

/-- Nanoseconds in a second. -/
def nanosPerSecond : Nat := 1000000000

/-- A duration in milliseconds: whole seconds and the rest are added as doubles. -/
def milliseconds (nanoseconds : Nat) : Float :=
  let seconds := Float.ofNat (nanoseconds / nanosPerSecond)
  let rest := Float.ofNat (nanoseconds % nanosPerSecond)
  (seconds + rest / Float.ofNat nanosPerSecond) * 1000.0

/-- The text of a duration: milliseconds with three places. -/
def durationText (nanoseconds : Nat) : String :=
  Decimal.writePlaces 3 (milliseconds nanoseconds)

/-- The steps of the table of values. -/
def tableSteps : Nat := 10

/-- How a function is given. -/
def kindText (compiled : Compiled Float) : String :=
  if compiled.function.isSampled then
    "sampled, " ++ toString compiled.precision ++ " samples per joint"
  else "exact"

/-- One line of the table of values. -/
def tableLine (compiled : Compiled Float) (step : Nat) : String :=
  let t := Float.ofNat step / Float.ofNat tableSteps
  "// f(" ++ Decimal.writePlaces 1 t ++ ") = " ++ Decimal.writePlaces 6 (compiled.eval t) ++ "\n"

/-- The report, given the text of the duration. -/
def text (compiled : Compiled Float) (duration : String) : String :=
  let typed := match compiled.typedSource with
    | some source => "\n// typed\n" ++ source
    | none => ""
  "// untyped\n" ++ compiled.untypedSource ++ typed ++
    "\n// " ++ kindText compiled ++ " in " ++ duration ++ " ms\n" ++
    String.join ((List.range (tableSteps + 1)).map (tableLine compiled))

end Report

end Easing
