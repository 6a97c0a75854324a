/-
**The tables of a sampled compile.**

A sampled compile gives one table per joint, without gaps, and refuses every sample that is not
finite. A joint that is too wide for its width to be a scalar has no first sample, so it is refused
too. What is looked up between the ends is found in one table, between its ends.

* `SampledCurve.Tabulates`: what is known of the tables; `compile_tabulates`.
* `Tabulates.exists_table`: the table for a place between the ends.
* `Tabulates.lookup_inside`: the value there.
-/
import Easing.Proofs.Curve.Interpolation
import Easing.Proofs.Scalar.Order

set_option linter.unusedSectionVars false

namespace Easing

variable {α : Type} [Scalar α]

/-- The tables of finite samples at `last + 1` places of each joint. -/
structure SampledCurve.Tabulates (curve : SampledCurve α) (last : ℕ) : Prop where
  nonempty : 0 < curve.tables.size
  size : ∀ table ∈ curve.tables, table.samples.size = last + 1
  ends : ∀ table ∈ curve.tables,
    Scalar.isFinite table.start = true ∧ Scalar.isFinite table.stop = true
  samples : ∀ table ∈ curve.tables, ∀ a ∈ table.samples, Scalar.isFinite a = true
  wide : ∀ table ∈ curve.tables, table.start < table.stop
  width : ∀ table ∈ curve.tables, Scalar.isFinite (table.stop - table.start) = true
  joined : curve.tables.toList.IsChain fun left right => left.stop = right.start

/-! ### Tables of compiles -/

section Compiles

variable [LawfulSame α] [OrderedScalar α] [Proportional α] {pool : SolverPool α} {path : Path α}
  {curve : Curve α}

/-- A curve has no value at no number. -/
theorem Curve.isNaN_eval (curve : Curve α) {t : α} (none : Scalar.isNaN t = true) :
    Scalar.isNaN (curve.eval t) = true := by
  unfold eval
  split
  · rw [if_pos none]
    exact Proportional.isNaN_nan
  · exact Proportional.isNaN_nan

theorem x_lt_of_forward {start stop : α} (forward : isBackward start stop = false) :
    start < stop := by
  unfold isBackward at forward
  rw [Bool.or_eq_false_iff, Bool.or_eq_false_iff, decide_eq_false_iff_not] at forward
  exact (Scalar.lt_or_le forward.1.2 forward.2).resolve_right forward.1.1

/-- What a sampled compile gives are the samples of a curve that was built, and they are finite. -/
theorem compile_samples [Numeral α] {options : CompileOptions} {compiled : Compiled α}
    {sampled : SampledCurve α} (ok : (compile pool path options).1 = .ok compiled)
    (isSampled : compiled.function = .sampled sampled) :
    ∃ curve, (buildCurve pool path).1 = .ok curve ∧
      sampled = SampledCurve.sample curve.eval curve.ranges options.precision ∧
      sampled.infiniteAt? = none ∧ compiled.untypedSource = sampled.source .untyped := by
  unfold compile at ok
  dsimp only at ok
  cases built : (buildCurve pool path).1 with
  | error error =>
    rw [built] at ok
    cases ok
  | ok curve =>
    rw [built] at ok
    change (chooseFunction options curve).map _ = _ at ok
    unfold chooseFunction at ok
    dsimp only at ok
    split at ok
    · split at ok
      next => cases ok
      next finite =>
        cases ok
        cases isSampled
        exact ⟨curve, rfl, rfl, finite, rfl⟩
    · cases ok
      cases isSampled

theorem SampleTable.mem_samples (f : α → α) {last : ℕ} (some : 0 < last) (range : α × α) :
    f (position range.1 range.2 0 last) ∈ (sample f last range).samples := by
  unfold sample
  refine Array.mem_push.mpr (.inl (Array.mem_map.mpr ⟨0, Array.mem_range.mpr some, rfl⟩))

/-- **A sampled compile gives one table per joint, without gaps**, of finite samples. -/
theorem compile_tabulates [Numeral α] {options : CompileOptions} {compiled : Compiled α}
    {sampled : SampledCurve α} (ok : (compile pool path options).1 = .ok compiled)
    (isSampled : compiled.function = .sampled sampled) :
    sampled.Tabulates (max options.precision 2 - 1) := by
  obtain ⟨curve, built, rfl, finite, -⟩ := compile_samples ok isSampled
  have steps : 0 < max options.precision 2 - 1 := by omega
  have tables : (SampledCurve.sample curve.eval curve.ranges options.precision).tables =
      (curve.branches.map fun branch => SampleTable.sample curve.eval (max options.precision 2 - 1)
        (branch.start.x, branch.stop.x)).toArray := by
    unfold SampledCurve.sample Curve.ranges
    rw [List.map_map]
    rfl
  have isTable : ∀ table ∈ (SampledCurve.sample curve.eval curve.ranges options.precision).tables,
      ∃ branch ∈ curve.branches, SampleTable.sample curve.eval (max options.precision 2 - 1)
        (branch.start.x, branch.stop.x) = table := by
    rw [tables]
    exact fun table member => List.mem_map.mp (List.mem_toArray.mp member)
  have samples : ∀ table ∈ (SampledCurve.sample curve.eval curve.ranges options.precision).tables,
      ∀ a ∈ table.samples, Scalar.isFinite a = true := by
    intro table member a inside
    have none := Option.map_eq_none_iff.mp (Array.findSome?_eq_none_iff.mp finite table member)
    have own := Array.findIdx?_eq_none_iff.mp none a inside
    rwa [Bool.not_eq_false'] at own
  constructor
  case nonempty =>
    rw [tables, List.size_toArray, List.length_map]
    exact List.length_pos_of_ne_nil (branches_ne_nil built)
  case size =>
    intro table member
    obtain ⟨branch, -, rfl⟩ := isTable table member
    simp [SampleTable.sample]
  case ends =>
    intro table member
    obtain ⟨branch, inside, rfl⟩ := isTable table member
    have own := isFinite_of_built built inside
    unfold Branch.isFinite at own
    simp only [Bool.and_eq_true] at own
    exact ⟨own.1.1.1.1, own.1.1.2⟩
  case samples => exact samples
  case wide =>
    intro table member
    obtain ⟨branch, inside, rfl⟩ := isTable table member
    obtain ⟨joint, -, joins⟩ := exists_joint built inside
    show branch.start.x < branch.stop.x
    rw [joins.start, joins.stop]
    exact x_lt_of_forward joins.forward
  case width =>
    intro table member
    obtain ⟨branch, inside, rfl⟩ := isTable table member
    show Scalar.isFinite (branch.stop.x - branch.start.x) = true
    by_contra infinite
    -- the place of the first sample would be no number
    have first := samples _ member _ (SampleTable.mem_samples curve.eval steps _)
    have none : Scalar.isNaN (SampleTable.position branch.start.x branch.stop.x 0
        (max options.precision 2 - 1)) = true :=
      Proportional.isNaN_of_infinite _ ((Bool.not_eq_true _).mp infinite)
    unfold Scalar.isFinite at first
    rw [curve.isNaN_eval none] at first
    cases first
  case joined =>
    rw [tables, List.isChain_map]
    exact (Branch.joined_of_pairs (buildCurve_joins built)).imp fun left right same =>
      congrArg (·.x) same

end Compiles

/-! ### Looking up -/

/-- The samples of a table, by their indices. -/
theorem SampleTable.getElem?_samples {table : SampleTable α} {last i : ℕ}
    (size : table.samples.size = last + 1) (within : i ≤ last) :
    table.samples.toList[i]? = some (table.get i) := by
  have inside : i < table.samples.size := by omega
  unfold get
  rw [Array.getElem?_toList, Array.getElem?_eq_getElem inside, Array.getD_eq_getD_getElem?,
    Array.getElem?_eq_getElem inside]
  rfl

namespace SampledCurve.Tabulates

variable [OrderedScalar α] {curve : SampledCurve α} {last : ℕ} {t : α} {left right : SampleTable α}
  {i j : ℕ}

theorem stop_eq_start (tabulates : curve.Tabulates last) (isLeft : curve.tables[i]? = some left)
    (isRight : curve.tables[i + 1]? = some right) : left.stop = right.start := by
  rw [← Array.getElem?_toList] at isLeft isRight
  obtain ⟨before, rfl⟩ := List.getElem?_eq_some_iff.mp isLeft
  obtain ⟨inside, rfl⟩ := List.getElem?_eq_some_iff.mp isRight
  exact List.isChain_iff_getElem.mp tabulates.joined i inside

/-- Tables end in order. -/
theorem stop_le_stop (tabulates : curve.Tabulates last) (isLeft : curve.tables[i]? = some left)
    (isRight : curve.tables[j]? = some right) (le : i ≤ j) : left.stop ≤ right.stop := by
  induction j, le using Nat.le_induction generalizing right with
  | base =>
    obtain rfl := Option.some.inj (isLeft.symm.trans isRight)
    have wide := tabulates.wide left (Array.mem_of_getElem? isLeft)
    exact Scalar.le_self (Scalar.isNumber_right (Scalar.le_of_lt wide))
  | succ j _ ih =>
    have inside : j < curve.tables.size :=
      Nat.lt_of_succ_lt (Array.getElem?_eq_some_iff.mp isRight).1
    have before : curve.tables[j]? = some curve.tables[j] := Array.getElem?_eq_getElem inside
    have wide := tabulates.wide right (Array.mem_of_getElem? isRight)
    rw [← tabulates.stop_eq_start before isRight] at wide
    exact OrderedScalar.le_trans (ih before) (Scalar.le_of_lt wide)

theorem endsBefore_iff : curve.endsBefore t i = true ↔
    ∃ table, curve.tables[i]? = some table ∧ table.stop < t := by
  unfold endsBefore
  rw [Option.any_eq_true]
  simp only [decide_eq_true_eq]

theorem sorted (tabulates : curve.Tabulates last) (i j : ℕ) (le : i ≤ j)
    (ends : curve.endsBefore t j = true) : curve.endsBefore t i = true := by
  obtain ⟨right, isRight, below⟩ := endsBefore_iff.mp ends
  have inside : i < curve.tables.size :=
    Nat.lt_of_le_of_lt le (Array.getElem?_eq_some_iff.mp isRight).1
  have isLeft : curve.tables[i]? = some curve.tables[i] := Array.getElem?_eq_getElem inside
  exact endsBefore_iff.mpr ⟨_, isLeft,
    Scalar.lt_of_le_of_lt (tabulates.stop_le_stop isLeft isRight le) below⟩

/-- **A place between the ends lies in the table that is found**, beyond its start. The tables
before it end before the place, the others do not. -/
theorem exists_table (tabulates : curve.Tabulates last) {first final : SampleTable α}
    (isFirst : curve.tables[0]? = some first)
    (isFinal : curve.tables[curve.tables.size - 1]? = some final) (number : Scalar.IsNumber t)
    (low : ¬t ≤ first.start) (high : ¬final.stop ≤ t) :
    ∃ table, curve.tables[curve.tableIndex t]? = some table ∧ table.start < t ∧ t ≤ table.stop ∧
      ∀ i, curve.endsBefore t i = true ↔ i < curve.tableIndex t := by
  have isNumber : ∀ table ∈ curve.tables, Scalar.IsNumber table.start ∧ Scalar.IsNumber table.stop :=
    fun table member => OrderedScalar.isNumber_of_le (Scalar.le_of_lt (tabulates.wide table member))
  have within : curve.endsBefore t (curve.tables.size - 1) = false := by
    rw [Bool.eq_false_iff]
    intro ends
    obtain ⟨table, isTable, below⟩ := endsBefore_iff.mp ends
    obtain rfl := Option.some.inj (isTable.symm.trans isFinal)
    exact high (Scalar.le_of_lt below)
  obtain ⟨inside, notEnds, before⟩ := tableIndex_spec tabulates.sorted tabulates.nonempty within
  obtain ⟨table, isTable⟩ : ∃ table, curve.tables[curve.tableIndex t]? = some table :=
    ⟨_, Array.getElem?_eq_getElem inside⟩
  have member := Array.mem_of_getElem? isTable
  refine ⟨table, isTable, ?_, ?_, fun i => ⟨fun ends => ?_, before i⟩⟩
  · -- it starts with the first table or where the table before ends
    refine (Scalar.lt_or_le (isNumber table member).1 number).resolve_right fun early => ?_
    cases place : curve.tableIndex t with
    | zero =>
      rw [place] at isTable
      obtain rfl := Option.some.inj (isFirst.symm.trans isTable)
      exact low early
    | succ previous =>
      obtain ⟨left, isPrevious, ends⟩ := endsBefore_iff.mp (before previous (by omega))
      rw [place] at isTable
      rw [tabulates.stop_eq_start isPrevious isTable] at ends
      exact Scalar.not_le_of_lt ends early
  · refine (Scalar.lt_or_le (isNumber table member).2 number).resolve_left fun ends => ?_
    rw [endsBefore_iff.mpr ⟨table, isTable, ends⟩] at notEnds
    cases notEnds
  · by_contra notBefore
    rw [tabulates.sorted _ i (Nat.le_of_not_lt notBefore) ends] at notEnds
    cases notEnds

variable [Indexing α] [Proportional α]

/-- The place in a table, counted in steps from its start, lies within the steps. -/
theorem place_mem (tabulates : curve.Tabulates last) (small : last < wholeLimit)
    {table : SampleTable α} (member : table ∈ curve.tables) (low : table.start < t)
    (high : t ≤ table.stop) :
    0 ≤ (t - table.start) / (table.stop - table.start) * (last : α) ∧
      (t - table.start) / (table.stop - table.start) * (last : α) ≤ (last : α) :=
  Proportional.share_mem small (OrderedScalar.sub_pos_iff.mpr low)
    (Proportional.sub_le_sub_right high low) (tabulates.width table member)

/-- **Inside a table** the place is rounded down to the index of a sample, so that no bound is needed
for it. -/
theorem lookup_inside (tabulates : curve.Tabulates last) (small : last + 1 < wholeLimit)
    {table : SampleTable α} (member : table ∈ curve.tables) (low : table.start < t)
    (high : t ≤ table.stop) :
    table.lookup t = if t == table.stop then table.get last else
      let place := (t - table.start) / (table.stop - table.start) * (last : α)
      let floor := Scalar.floorNat place
      table.get floor + (table.get (min (floor + 1) last) - table.get floor) *
        (place - (floor : α)) := by
  have apart : (t == table.start) = false :=
    Bool.eq_false_iff.mpr fun same => Scalar.not_le_of_lt low (OrderedScalar.beq_iff.mp same).1
  have wide : (table.stop == table.start) = false := Bool.eq_false_iff.mpr fun same =>
    Scalar.not_le_of_lt (tabulates.wide table member) (OrderedScalar.beq_iff.mp same).1
  have size : table.samples.size - 1 = last := by rw [tabulates.size table member]; rfl
  obtain ⟨nonneg, le⟩ := tabulates.place_mem (Nat.lt_of_succ_lt small) member low high
  have within := (Indexing.floorNat_spec small nonneg le).1
  unfold SampleTable.lookup SampleTable.last SampleTable.interpolate
  dsimp only
  rw [apart, wide, size, if_neg Bool.false_ne_true, Bool.or_false, Nat.min_eq_left within]

end SampledCurve.Tabulates

end Easing
