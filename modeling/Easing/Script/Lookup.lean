/-
**The script of a sampled curve.**

The tables come first, then the lookup: the ends, a halving search for the interval that holds `t`,
and the interpolation between the two nearest samples.
-/
import Easing.Script.Solver
import Easing.Script.Wrap
import Easing.Curve.Sampled

namespace Easing

namespace Script

variable {α : Type} [Scalar α]

/-- The intervals and the samples. -/
def tables (curve : SampledCurve α) : List (Stmt α) :=
  [ .simple (.constant "ranges" (some .pairs)
      (.array (curve.tables.toList.map fun table =>
        .array [.literal table.start, .literal table.stop]))),
    .table "samples" .rows
      (curve.tables.toList.map fun table => .array (table.samples.toList.map .literal)) ]

/-- The value outside the intervals, or of no number. -/
def outside : List (Stmt α) :=
  let t := var "t"
  let lastRange := var "lastRange"
  let firstRange := .item (var "ranges") (whole 0)
  let lastRow := .item (var "samples") lastRange
  [ .guarded (.builtin .isNaN [t]) (.result .nan),
    .guarded (.binary .atMost t (.item firstRange (whole 0)))
      (.result (.item (.item (var "samples") (whole 0)) (whole 0))),
    .simple (.constant "lastRange" none (sub (.size (var "ranges")) (whole 1))),
    .guarded (.binary .atLeast t (.item (.item (var "ranges") lastRange) (whole 1)))
      (.result (.item lastRow (sub (.size lastRow) (whole 1)))) ]

/-- The search for the first interval that does not end before `t`. -/
def search : List (Stmt α) :=
  let lo := var "lo"
  let hi := var "hi"
  let mid := var "mid"
  [ .simple (.variable "lo" (whole 0)),
    .simple (.variable "hi" (var "lastRange")),
    .loop (.binary .less lo hi)
      [ .simple (.constant "mid" none (.binary .shiftRight (add lo hi) (whole 1))),
        .either (.binary .less (.item (.item (var "ranges") mid) (whole 1)) (var "t"))
          (.assign "lo" (add mid (whole 1))) (.assign "hi" mid) ] ]

/-- The value inside an interval. -/
def inside : List (Stmt α) :=
  let t := var "t"
  let table := var "table"
  let start := var "start"
  let stop := var "end"
  let lastIndex := sub (var "n") (whole 1)
  let floorEntry := .item table (var "floor")
  [ .simple (.constantPair "start" "end" (.item (var "ranges") (var "lo"))),
    .simple (.constant "table" none (.item (var "samples") (var "lo"))),
    .simple (.constant "n" none (.size table)),
    .guarded (.binary .equal t start) (.result (.item table (whole 0))),
    .guarded (.binary .equal t stop) (.result (.item table lastIndex)),
    .simple (.constant "position" none
      (mul (div (sub t start) (sub stop start)) lastIndex)),
    .simple (.constant "floor" none (.builtin .floor [var "position"])),
    .simple (.constant "ceil" none (.builtin .min [add (var "floor") (whole 1), lastIndex])),
    .simple (.result
      (add floorEntry
        (mul (sub (.item table (var "ceil")) floorEntry)
          (sub (var "position") (var "floor"))))) ]

end Script

namespace SampledCurve

variable {α : Type} [Scalar α]

/-- The script of a sampled curve: the body of a function of `t`. -/
def script (curve : SampledCurve α) : List (Script.Stmt α) :=
  Script.tables curve ++ Script.outside ++ Script.search ++ Script.inside

/-- The text of the whole function. -/
def source [Numeral α] (curve : SampledCurve α) (dialect : Script.Dialect) : String :=
  Script.wrapLines dialect (Script.Stmt.allLines dialect curve.script)

end SampledCurve

end Easing
