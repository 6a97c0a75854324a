/-
**Sampled curves: a table of values per interval.**

Each interval gets evenly spaced samples, both ends included. Between two samples the value is
interpolated; outside all intervals it is that of the nearest end.

* `SampledCurve.sample`: the tables of a function.
* `SampledCurve.infiniteAt?`: where the first sample is that is not finite.
* `SampledCurve.lookup`: the value at x.
-/
import Easing.Scalar

namespace Easing

/-- The samples of one interval. -/
structure SampleTable (α : Type) where
  start : α
  stop : α
  samples : Array α

/-- A function in the form of tables, one per interval. -/
structure SampledCurve (α : Type) where
  tables : Array (SampleTable α)

variable {α : Type} [Scalar α]

namespace SampleTable

/-- The place of a sample, `last` being the index of the last one. -/
def position (start stop : α) (index last : Nat) : α :=
  start + (stop - start) * (index : α) / (last : α)

/-- Samples a function at `last + 1` places. The end is hit exactly. -/
def sample (f : α → α) (last : Nat) (range : α × α) : SampleTable α :=
  let inner := (Array.range last).map fun index => f (position range.1 range.2 index last)
  ⟨range.1, range.2, inner.push (f range.2)⟩

/-- The place of the first sample that is not finite. -/
def infiniteAt? (table : SampleTable α) : Option α :=
  (table.samples.findIdx? fun value => !Scalar.isFinite value).map fun index =>
    position table.start table.stop index (max (table.samples.size - 1) 1)

/-- The sample at an index. -/
def get (table : SampleTable α) (index : Nat) : α := table.samples.getD index Scalar.nan

/-- The last sample. -/
def last (table : SampleTable α) : α := table.get (table.samples.size - 1)

/-- The value at `x` between two samples. -/
def interpolate (table : SampleTable α) (x : α) : α :=
  let last := table.samples.size - 1
  let place := (x - table.start) / (table.stop - table.start) * (last : α)
  let floor := min (Scalar.floorNat place) last
  let ceil := min (floor + 1) last
  let fraction := place - (floor : α)
  table.get floor + (table.get ceil - table.get floor) * fraction

/-- The value at `x` in the table's interval. The ends are exact. -/
def lookup (table : SampleTable α) (x : α) : α :=
  if x == table.start then table.get 0
  else if x == table.stop || table.stop == table.start then table.last
  else table.interpolate x

end SampleTable

namespace SampledCurve

/-- Samples a function over intervals, at least twice in each. -/
def sample (f : α → α) (ranges : List (α × α)) (precision : Nat) : SampledCurve α :=
  ⟨(ranges.map (SampleTable.sample f (max precision 2 - 1))).toArray⟩

/-- The number of samples per interval. -/
def precision (curve : SampledCurve α) : Nat :=
  match curve.tables[0]? with
  | some table => table.samples.size
  | none => 0

/-- The place of the first sample that is not finite. -/
def infiniteAt? (curve : SampledCurve α) : Option α :=
  curve.tables.findSome? SampleTable.infiniteAt?

/-- Halves a stretch of so many tables from index `base` on until one table is left: the last one
whose predecessors all end before `x`, or that one itself. -/
def locate (curve : SampledCurve α) (x : α) (base count : Nat) : Nat :=
  if _small : count ≤ 1 then base
  else
    let half := count / 2
    let middle := base + half
    let ends := (curve.tables[middle]?).any fun table => table.stop < x
    locate curve x (if ends then middle else base) (count - half)
termination_by count
decreasing_by omega

/-- The index of the table for `x`: the first that does not end before `x`. -/
def tableIndex (curve : SampledCurve α) (x : α) : Nat :=
  let index := curve.locate x 0 curve.tables.size
  let ends := (curve.tables[index]?).any fun table => table.stop < x
  min (if ends then index + 1 else index) (curve.tables.size - 1)

/-- The value at `x`. -/
def lookup (curve : SampledCurve α) (x : α) : α :=
  match curve.tables[0]?, curve.tables.back? with
  | some first, some last =>
    if Scalar.isNaN x then Scalar.nan
    else if x ≤ first.start then first.get 0
    else if last.stop ≤ x then last.last
    else
      match curve.tables[curve.tableIndex x]? with
      | some table => table.lookup x
      | none => Scalar.nan
  | _, _ => Scalar.nan

end SampledCurve

end Easing
