/-
**Sampled curves are the interpolants of exact ones.**

Read over the reals: a sampled curve takes the values of the exact one at evenly spaced places of
every joint, is linear between them, and is level outside the anchors. At the boundary of two joints
both tables hold the same value, so that it does not matter which one a lookup finds.

* `SampledCurve.locate_spec`: what halving a stretch of tables finds.
* `SampleTable.lookup_between`: a table is linear between two neighbouring places.
* `Chained`: joints without gaps, each one of a positive width; `buildCurve_chained`.
* `SampledCurve.interpolates_sample`: the tables of a function interpolate it.
* `compile_interpolates`: a sampled compile against the exact one.
-/
import Mathlib
import Easing.Compiled
import Easing.Proofs.Curve.Joint

set_option linter.unusedSectionVars false

namespace Easing

/-! ### Finding a table -/

section Finding

variable {α : Type} [Scalar α]

namespace SampledCurve

/-- The table at an index ends before `x`. -/
def endsBefore (curve : SampledCurve α) (x : α) (index : Nat) : Bool :=
  (curve.tables[index]?).any fun table => table.stop < x

theorem locate_of_le_one {curve : SampledCurve α} {x : α} {base count : Nat} (small : count ≤ 1) :
    curve.locate x base count = base := by
  unfold locate
  rw [dif_pos small]

theorem locate_halve {curve : SampledCurve α} {x : α} {base count : Nat} (large : ¬count ≤ 1) :
    curve.locate x base count =
      curve.locate x (if curve.endsBefore x (base + count / 2) then base + count / 2 else base)
        (count - count / 2) := by
  rw [locate, dif_neg large]
  rfl

/-- **Halving finds the last table that ends before `x`**, or the first one of the stretch. -/
theorem locate_spec {curve : SampledCurve α} {x : α}
    (sorted : ∀ i j, i ≤ j → curve.endsBefore x j = true → curve.endsBefore x i = true)
    (base count : Nat) :
    base ≤ curve.locate x base count ∧
      (curve.locate x base count = base ∨
        curve.endsBefore x (curve.locate x base count) = true) ∧
      ∀ j, curve.locate x base count < j → j < base + count → curve.endsBefore x j = false := by
  induction count using Nat.strong_induction_on generalizing base with
  | _ count ih =>
    by_cases small : count ≤ 1
    · rw [locate_of_le_one small]
      exact ⟨Nat.le_refl _, .inl rfl, fun j above below => by omega⟩
    · rw [locate_halve small]
      have halved : count / 2 + count / 2 ≤ count := by omega
      cases ends : curve.endsBefore x (base + count / 2) with
      | true =>
        rw [if_pos rfl]
        obtain ⟨above, reached, beyond⟩ := ih (count - count / 2) (by omega) (base + count / 2)
        refine ⟨by omega, .inr ?_, fun j past below => beyond j past (by omega)⟩
        rcases reached with same | reached
        · rw [same, ends]
        · exact reached
      | false =>
        rw [if_neg Bool.false_ne_true]
        obtain ⟨above, reached, beyond⟩ := ih (count - count / 2) (by omega) base
        refine ⟨above, reached, fun j past below => ?_⟩
        rcases Nat.lt_or_ge j (base + (count - count / 2)) with early | late
        · exact beyond j past early
        · -- the middle table does not end before x, and this one is not before it
          rw [Bool.eq_false_iff]
          intro endsThere
          rw [sorted (base + count / 2) j (by omega) endsThere] at ends
          exact Bool.false_ne_true ends.symm

/-- The table that is found is the first that does not end before `x`. -/
theorem tableIndex_spec {curve : SampledCurve α} {x : α}
    (sorted : ∀ i j, i ≤ j → curve.endsBefore x j = true → curve.endsBefore x i = true)
    (some : 0 < curve.tables.size)
    (within : curve.endsBefore x (curve.tables.size - 1) = false) :
    curve.tableIndex x < curve.tables.size ∧ curve.endsBefore x (curve.tableIndex x) = false ∧
      ∀ i < curve.tableIndex x, curve.endsBefore x i = true := by
  have index : curve.tableIndex x =
      min (if curve.endsBefore x (curve.locate x 0 curve.tables.size) then
        curve.locate x 0 curve.tables.size + 1 else curve.locate x 0 curve.tables.size)
        (curve.tables.size - 1) := rfl
  obtain ⟨-, reached, beyond⟩ := locate_spec sorted 0 curve.tables.size
  rw [index]
  generalize curve.locate x 0 curve.tables.size = found at reached beyond
  cases ends : curve.endsBefore x found with
  | true =>
    have inner : found < curve.tables.size - 1 := by
      by_contra outer
      rw [sorted _ _ (Nat.le_of_not_lt outer) ends] at within
      exact Bool.false_ne_true within.symm
    rw [if_pos rfl, Nat.min_eq_left (by omega)]
    exact ⟨by omega, beyond _ (Nat.lt_succ_self _) (by omega),
      fun i before => sorted i found (by omega) ends⟩
  | false =>
    obtain rfl : found = 0 := by
      rcases reached with start | reached
      · exact start
      · rw [ends] at reached
        exact absurd reached Bool.false_ne_true
    rw [if_neg Bool.false_ne_true, Nat.zero_min]
    exact ⟨some, ends, fun i before => absurd before (Nat.not_lt_zero _)⟩

end SampledCurve

end Finding

/-! ### One table -/

namespace SampleTable

variable {f : ℝ → ℝ} {range : ℝ × ℝ} {last : ℕ}

theorem position_zero (start stop : ℝ) (last : ℕ) : position start stop 0 last = start := by
  unfold position
  rw [Nat.cast_zero, mul_zero, zero_div, add_zero]

theorem position_last (start stop : ℝ) (some : 0 < last) : position start stop last last = stop := by
  have nonzero : (last : ℝ) ≠ 0 := Nat.cast_ne_zero.mpr some.ne'
  unfold position
  rw [mul_div_assoc, div_self nonzero, mul_one, add_sub_cancel]

theorem position_step (start stop : ℝ) (index last : ℕ) :
    position start stop (index + 1) last - position start stop index last =
      (stop - start) / last := by
  unfold position
  rw [Nat.cast_add_one]
  ring

theorem position_lt_succ {start stop : ℝ} (wide : start < stop) (some : 0 < last) (index : ℕ) :
    position start stop index last < position start stop (index + 1) last := by
  rw [← sub_pos, position_step]
  exact div_pos (sub_pos.mpr wide) (Nat.cast_pos.mpr some)

/-- All places are in the interval. -/
theorem position_mem {start stop : ℝ} (wide : start < stop) (some : 0 < last) {index : ℕ}
    (within : index ≤ last) :
    start ≤ position start stop index last ∧ position start stop index last ≤ stop := by
  have grows : Monotone fun index => position start stop index last :=
    monotone_nat_of_le_succ fun index => (position_lt_succ wide some index).le
  refine ⟨?_, (grows within).trans_eq (position_last start stop some)⟩
  exact (position_zero start stop last).symm.trans_le (grows (Nat.zero_le index))

/-- The samples are the values at the places. -/
theorem get_sample (some : 0 < last) {index : ℕ} (within : index ≤ last) :
    (sample f last range).get index = f (position range.1 range.2 index last) := by
  have size : ((Array.range last).map fun i => f (position range.1 range.2 i last)).size = last := by
    rw [Array.size_map, Array.size_range]
  unfold get sample
  rw [Array.getD_eq_getD_getElem?]
  rcases Nat.lt_or_eq_of_le within with inner | rfl
  · rw [Array.getElem?_push_lt (by rw [size]; exact inner)]
    simp
  · rw [position_last _ _ some, Array.getElem?_push, if_pos size.symm]
    rfl

theorem size_sample : (sample f last range).samples.size - 1 = last := by
  unfold sample
  rw [Array.size_push, Array.size_map, Array.size_range, Nat.add_sub_cancel]

theorem last_sample (some : 0 < last) : (sample f last range).last = f range.2 := by
  unfold SampleTable.last
  rw [size_sample, get_sample some le_rfl, position_last _ _ some]

/-- Where x stands among the places of a table, in units of their distance. -/
noncomputable def rank (range : ℝ × ℝ) (last : ℕ) (x : ℝ) : ℝ :=
  (x - range.1) / (range.2 - range.1) * last

section Wide

variable (wide : range.1 < range.2) (some : 0 < last)

include wide some

theorem le_rank_iff {index : ℕ} {x : ℝ} :
    index ≤ rank range last x ↔ position range.1 range.2 index last ≤ x := by
  have width : 0 < range.2 - range.1 := sub_pos.mpr wide
  have count : (0 : ℝ) < last := Nat.cast_pos.mpr some
  unfold rank position
  rw [div_mul_eq_mul_div, le_div_iff₀ width, ← le_sub_iff_add_le', div_le_iff₀ count, mul_comm]

theorem rank_le_iff {index : ℕ} {x : ℝ} :
    rank range last x ≤ index ↔ x ≤ position range.1 range.2 index last := by
  have width : 0 < range.2 - range.1 := sub_pos.mpr wide
  have count : (0 : ℝ) < last := Nat.cast_pos.mpr some
  unfold rank position
  rw [div_mul_eq_mul_div, div_le_iff₀ width, ← sub_le_iff_le_add', le_div_iff₀ count,
    mul_comm _ (range.2 - range.1)]

/-- The part of a step that lies between a place and x. -/
theorem rank_sub {index : ℕ} {x : ℝ} :
    rank range last x - index =
      (x - position range.1 range.2 index last) /
        (position range.1 range.2 (index + 1) last - position range.1 range.2 index last) := by
  have width : range.2 - range.1 ≠ 0 := (sub_pos.mpr wide).ne'
  have count : (last : ℝ) ≠ 0 := Nat.cast_ne_zero.mpr some.ne'
  rw [position_step]
  unfold rank position
  field_simp
  ring

/-- **A table is linear between two neighbouring places.** -/
theorem interpolate_between {k : ℕ} (before : k < last) {x : ℝ}
    (low : position range.1 range.2 k last ≤ x)
    (high : x ≤ position range.1 range.2 (k + 1) last) :
    (sample f last range).interpolate x =
      f (position range.1 range.2 k last) +
        (f (position range.1 range.2 (k + 1) last) - f (position range.1 range.2 k last)) *
          (x - position range.1 range.2 k last) /
          (position range.1 range.2 (k + 1) last - position range.1 range.2 k last) := by
  have above : (k : ℝ) ≤ rank range last x := (le_rank_iff wide some).mpr low
  have below : rank range last x ≤ (k + 1 : ℕ) := (rank_le_iff wide some).mpr high
  have value : (sample f last range).interpolate x =
      (sample f last range).get (min ⌊rank range last x⌋₊ last) +
        ((sample f last range).get (min (min ⌊rank range last x⌋₊ last + 1) last) -
          (sample f last range).get (min ⌊rank range last x⌋₊ last)) *
          (rank range last x - (min ⌊rank range last x⌋₊ last : ℕ)) := by
    unfold interpolate
    rw [size_sample]
    rfl
  rw [value, mul_div_assoc, ← rank_sub wide some]
  rcases below.lt_or_eq with inner | atNext
  · have floor : ⌊rank range last x⌋₊ = k := by
      refine (Nat.floor_eq_iff ((Nat.cast_nonneg k).trans above)).mpr ⟨above, ?_⟩
      exact_mod_cast inner
    rw [floor, Nat.min_eq_left before.le, Nat.min_eq_left before, get_sample some before.le,
      get_sample some before]
  · -- x is the next place, from where nothing is added
    rw [atNext, Nat.floor_natCast, Nat.min_eq_left before, get_sample some before, sub_self,
      mul_zero, add_zero, Nat.cast_add_one, add_sub_cancel_left, mul_one, add_sub_cancel]

/-- The special cases at the ends are those of the formula. -/
theorem lookup_eq_interpolate (x : ℝ) :
    (sample f last range).lookup x = (sample f last range).interpolate x := by
  have start : position range.1 range.2 0 last = range.1 := position_zero _ _ _
  have stop : position range.1 range.2 last last = range.2 := position_last _ _ some
  unfold lookup
  split
  next isStart =>
    obtain rfl : x = range.1 := beq_iff_eq.mp isStart
    have next : range.1 ≤ position range.1 range.2 (0 + 1) last := by
      rw [← rank_le_iff wide some]
      unfold rank
      rw [sub_self, zero_div, zero_mul]
      exact Nat.cast_nonneg _
    rw [interpolate_between wide some some start.le next, start, sub_self, mul_zero, zero_div,
      add_zero, get_sample some (Nat.zero_le _), start]
  next =>
    split
    next isStop =>
      have same : x = range.2 := by
        rcases Bool.or_eq_true_iff.mp isStop with atStop | narrow
        · exact beq_iff_eq.mp atStop
        · exact absurd (beq_iff_eq.mp narrow) wide.ne'
      subst same
      obtain ⟨before, rfl⟩ : ∃ before, last = before + 1 := Nat.exists_eq_succ_of_ne_zero some.ne'
      have low : position range.1 range.2 before (before + 1) ≤ range.2 := by
        rw [← le_rank_iff wide some]
        unfold rank
        rw [div_self (sub_pos.mpr wide).ne', one_mul]
        exact_mod_cast Nat.le_succ before
      rw [interpolate_between wide some (Nat.lt_succ_self before) low stop.ge, stop]
      have step : range.2 - position range.1 range.2 before (before + 1) ≠ 0 := by
        have wholeStep := position_step range.1 range.2 before (before + 1)
        rw [stop] at wholeStep
        rw [wholeStep]
        exact div_ne_zero (sub_pos.mpr wide).ne' (Nat.cast_ne_zero.mpr some.ne')
      rw [mul_div_assoc, div_self step, mul_one, add_sub_cancel]
      exact last_sample some
    next => rfl

/-- A table starts with the value at the start. -/
theorem lookup_start : (sample f last range).lookup range.1 = f range.1 := by
  unfold lookup
  refine (if_pos (beq_self_eq_true range.1)).trans ?_
  rw [get_sample some (Nat.zero_le _), position_zero]

/-- A table ends with the value at the end. -/
theorem lookup_stop : (sample f last range).lookup range.2 = f range.2 := by
  have apart : ¬(range.2 == range.1) = true := fun same => wide.ne' (beq_iff_eq.mp same)
  have atStop : (range.2 == range.2 || range.2 == range.1) = true := by
    rw [beq_self_eq_true, Bool.true_or]
  unfold lookup
  exact (if_neg apart).trans ((if_pos atStop).trans (last_sample some))

/-- Every x of an interval lies between two neighbouring places. -/
theorem exists_between {x : ℝ} (low : range.1 ≤ x) (high : x ≤ range.2) :
    ∃ k < last, position range.1 range.2 k last ≤ x ∧
      x ≤ position range.1 range.2 (k + 1) last := by
  have start : (0 : ℝ) ≤ rank range last x := by
    have first := (le_rank_iff wide some).mpr ((position_zero range.1 range.2 last).trans_le low)
    rwa [Nat.cast_zero] at first
  have stop : rank range last x ≤ last :=
    (rank_le_iff wide some).mpr (high.trans_eq (position_last _ _ some).symm)
  rcases Nat.lt_or_ge ⌊rank range last x⌋₊ last with inner | outer
  · refine ⟨_, inner, (le_rank_iff wide some).mp (Nat.floor_le start),
      (rank_le_iff wide some).mp ?_⟩
    exact_mod_cast (Nat.lt_floor_add_one _).le
  · -- x is at the last place
    obtain ⟨before, rfl⟩ : ∃ before, last = before + 1 := Nat.exists_eq_succ_of_ne_zero some.ne'
    have atLast := (Nat.le_floor_iff start).mp outer
    refine ⟨before, Nat.lt_succ_self _, (le_rank_iff wide some).mp (le_trans ?_ atLast),
      (rank_le_iff wide some).mp stop⟩
    exact_mod_cast Nat.le_succ before

end Wide

end SampleTable

/-! ### Joints without gaps -/

/-- Every interval has a width and starts where the one before it ends. -/
structure Chained (ranges : List (ℝ × ℝ)) : Prop where
  wide : ∀ range ∈ ranges, range.1 < range.2
  joined : ranges.IsChain fun left right => left.2 = right.1

namespace Chained

variable {ranges : List (ℝ × ℝ)} {i j : ℕ} {left right : ℝ × ℝ}

/-- Of two intervals the earlier one ends before the later one starts. -/
theorem stop_le_start (chained : Chained ranges) (isLeft : ranges[i]? = some left)
    (isRight : ranges[j]? = some right) (before : i < j) : left.2 ≤ right.1 := by
  induction j generalizing right with
  | zero => exact absurd before (Nat.not_lt_zero _)
  | succ j ih =>
    obtain ⟨within, isRight⟩ := List.getElem?_eq_some_iff.mp isRight
    have previous : ranges[j]? = some ranges[j] := List.getElem?_eq_getElem (by omega)
    have touch : (ranges[j]).2 = right.1 := by
      rw [← isRight]
      exact List.isChain_iff_getElem.mp chained.joined j within
    rw [← touch]
    rcases Nat.lt_or_eq_of_le (Nat.le_of_lt_succ before) with earlier | rfl
    · exact (ih previous earlier).trans (chained.wide _ (List.mem_of_getElem? previous)).le
    · rw [Option.some.inj (isLeft.symm.trans previous)]

/-- The ends are in order. -/
theorem stop_le_stop (chained : Chained ranges) (isLeft : ranges[i]? = some left)
    (isRight : ranges[j]? = some right) (before : i ≤ j) : left.2 ≤ right.2 := by
  rcases Nat.lt_or_eq_of_le before with earlier | rfl
  · exact (chained.stop_le_start isLeft isRight earlier).trans
      (chained.wide _ (List.mem_of_getElem? isRight)).le
  · rw [Option.some.inj (isLeft.symm.trans isRight)]

/-- So are the starts. -/
theorem start_le_start (chained : Chained ranges) (isLeft : ranges[i]? = some left)
    (isRight : ranges[j]? = some right) (before : i ≤ j) : left.1 ≤ right.1 := by
  rcases Nat.lt_or_eq_of_le before with earlier | rfl
  · exact (chained.wide _ (List.mem_of_getElem? isLeft)).le.trans
      (chained.stop_le_start isLeft isRight earlier)
  · rw [Option.some.inj (isLeft.symm.trans isRight)]

theorem tail {range : ℝ × ℝ} (chained : Chained (range :: ranges)) : Chained ranges where
  wide other member := chained.wide other (List.mem_cons_of_mem _ member)
  joined := chained.joined.tail

theorem head_le {range other : ℝ × ℝ} (chained : Chained (range :: ranges))
    (member : other ∈ ranges) : range.2 ≤ other.1 := by
  obtain ⟨index, isOther⟩ := List.mem_iff_getElem?.mp member
  have isRange : (range :: ranges)[0]? = some range := rfl
  refine chained.stop_le_start isRange (j := index + 1) ?_ (Nat.succ_pos _)
  rwa [List.getElem?_cons_succ]

/-- Between the two outer ends there is no gap. -/
theorem exists_range (chained : Chained ranges) {first final : ℝ × ℝ}
    (isFirst : ranges.head? = some first) (isFinal : ranges.getLast? = some final) {x : ℝ}
    (low : first.1 ≤ x) (high : x ≤ final.2) : ∃ range ∈ ranges, range.1 ≤ x ∧ x ≤ range.2 := by
  induction ranges generalizing first with
  | nil => cases isFirst
  | cons range rest ih =>
    obtain rfl : range = first := Option.some.inj isFirst
    rcases le_or_gt x range.2 with inside | beyond
    · exact ⟨range, List.mem_cons_self, low, inside⟩
    · obtain _ | ⟨next, rest⟩ := rest
      · obtain rfl : range = final := Option.some.inj isFinal
        exact absurd high (not_le_of_gt beyond)
      · have joined := List.isChain_cons_cons.mp chained.joined
        obtain ⟨found, member, bounds⟩ := ih chained.tail rfl
          (by rwa [List.getLast?_cons_cons] at isFinal) (joined.1 ▸ beyond.le)
        exact ⟨found, List.mem_cons_of_mem _ member, bounds⟩

end Chained

/-! ### All tables -/

namespace SampledCurve

variable {f : ℝ → ℝ} {ranges : List (ℝ × ℝ)} {precision : ℕ}

theorem tables_sample (index : ℕ) : (sample f ranges precision).tables[index]? =
    (ranges[index]?).map (SampleTable.sample f (max precision 2 - 1)) := by
  unfold sample
  rw [List.getElem?_toArray, List.getElem?_map]

theorem endsBefore_sample (x : ℝ) (index : ℕ) :
    (sample f ranges precision).endsBefore x index = true ↔
      ∃ range, ranges[index]? = some range ∧ range.2 < x := by
  unfold endsBefore
  rw [tables_sample, Option.any_map, Option.any_eq_true]
  exact exists_congr fun range => and_congr_right fun _ => decide_eq_true_iff

theorem size_sample : (sample f ranges precision).tables.size = ranges.length := by
  unfold sample
  rw [List.size_toArray, List.length_map]

/-- Outside the intervals the value is that of the nearest end. -/
theorem lookup_eq {first final : ℝ × ℝ} (isFirst : ranges.head? = some first)
    (isFinal : ranges.getLast? = some final) (x : ℝ) :
    (sample f ranges precision).lookup x =
      if x ≤ first.1 then f first.1
      else if final.2 ≤ x then f final.2
      else
        (((sample f ranges precision).tables[(sample f ranges precision).tableIndex x]?).map
          fun table => table.lookup x).getD Scalar.nan := by
  have steps : 0 < max precision 2 - 1 := by omega
  have front : (sample f ranges precision).tables[0]? =
      some (SampleTable.sample f (max precision 2 - 1) first) := by
    rw [tables_sample, ← List.head?_eq_getElem?, isFirst]
    rfl
  have back : (sample f ranges precision).tables.back? =
      some (SampleTable.sample f (max precision 2 - 1) final) := by
    rw [Array.back?, size_sample, tables_sample, ← List.getLast?_eq_getElem?, isFinal]
    rfl
  have start : (SampleTable.sample f (max precision 2 - 1) first).get 0 = f first.1 := by
    rw [SampleTable.get_sample steps (Nat.zero_le _), SampleTable.position_zero]
  unfold lookup
  rw [front, back]
  dsimp only
  have number : ¬Scalar.isNaN x = true := Bool.false_ne_true
  rw [start, SampleTable.last_sample steps, if_neg number]
  refine if_congr Iff.rfl rfl (if_congr Iff.rfl rfl ?_)
  split
  next table found => rw [found]; rfl
  next none => rw [none]; rfl

/-- **Whichever table is found, it has the value of the interval that x lies in.** -/
theorem lookup_sample (chained : Chained ranges) {range : ℝ × ℝ} (member : range ∈ ranges) {x : ℝ}
    (low : range.1 ≤ x) (high : x ≤ range.2) :
    (sample f ranges precision).lookup x =
      (SampleTable.sample f (max precision 2 - 1) range).lookup x := by
  have steps : 0 < max precision 2 - 1 := by omega
  have wide := chained.wide range member
  obtain ⟨place, isRange⟩ := List.mem_iff_getElem?.mp member
  have within : place < ranges.length := (List.getElem?_eq_some_iff.mp isRange).1
  obtain ⟨first, isFirst⟩ : ∃ first, ranges[0]? = some first :=
    ⟨_, List.getElem?_eq_getElem (by omega)⟩
  obtain ⟨final, isFinal⟩ : ∃ final, ranges[ranges.length - 1]? = some final :=
    ⟨_, List.getElem?_eq_getElem (by omega)⟩
  rw [lookup_eq (by rw [List.head?_eq_getElem?, isFirst])
    (by rw [List.getLast?_eq_getElem?, isFinal])]
  split_ifs with atFirst atFinal
  · have start := chained.start_le_start isFirst isRange (Nat.zero_le _)
    obtain rfl : x = range.1 := (atFirst.trans start).antisymm low
    rw [SampleTable.lookup_start wide steps, start.antisymm atFirst]
  · have stop := chained.stop_le_stop isRange isFinal (by omega)
    obtain rfl : x = range.2 := high.antisymm (stop.trans atFinal)
    rw [SampleTable.lookup_stop wide steps, stop.antisymm atFinal]
  · have sorted : ∀ i j, i ≤ j → (sample f ranges precision).endsBefore x j = true →
        (sample f ranges precision).endsBefore x i = true := by
      intro i j before endsThere
      obtain ⟨right, isRight, beforeX⟩ := (endsBefore_sample x j).mp endsThere
      have inside : i < ranges.length :=
        before.trans_lt (List.getElem?_eq_some_iff.mp isRight).1
      have isLeft : ranges[i]? = some ranges[i] := List.getElem?_eq_getElem inside
      exact (endsBefore_sample x i).mpr
        ⟨_, isLeft, (chained.stop_le_stop isLeft isRight before).trans_lt beforeX⟩
    have notAll : (sample f ranges precision).endsBefore x
        ((sample f ranges precision).tables.size - 1) = false := by
      rw [Bool.eq_false_iff, size_sample]
      intro ends
      obtain ⟨other, isOther, beforeX⟩ := (endsBefore_sample x _).mp ends
      rw [Option.some.inj (isOther.symm.trans isFinal)] at beforeX
      exact atFinal beforeX.le
    obtain ⟨inside, notEnds, passed⟩ := tableIndex_spec sorted (by rw [size_sample]; omega) notAll
    rw [size_sample] at inside
    generalize (sample f ranges precision).tableIndex x = index at inside notEnds passed
    have isFound : ranges[index]? = some ranges[index] := List.getElem?_eq_getElem inside
    have reaches : x ≤ (ranges[index]).2 := by
      by_contra beyond
      rw [(endsBefore_sample x index).mpr ⟨_, isFound, lt_of_not_ge beyond⟩] at notEnds
      exact Bool.false_ne_true notEnds.symm
    rw [tables_sample, isFound]
    show (SampleTable.sample f _ ranges[index]).lookup x = _
    rcases Nat.lt_trichotomy index place with before | same | after
    · -- x is the boundary of the two intervals
      have touch := chained.stop_le_start isFound isRange before
      obtain rfl : x = range.1 := (reaches.trans touch).antisymm low
      rw [SampleTable.lookup_start wide steps, ← touch.antisymm reaches]
      exact SampleTable.lookup_stop (chained.wide _ (List.mem_of_getElem? isFound)) steps
    · subst same
      rw [Option.some.inj (isRange.symm.trans isFound)]
    · obtain ⟨other, isOther, beforeX⟩ := (endsBefore_sample x place).mp (passed place after)
      rw [Option.some.inj (isOther.symm.trans isRange)] at beforeX
      exact absurd high (not_le_of_gt beforeX)

end SampledCurve

/-! ### The interpolant -/

/-- `g` takes the values of `f` at evenly spaced places of every interval, `last` steps apart, is
linear between them, and is level outside the outer ends. -/
structure Interpolates (f : ℝ → ℝ) (ranges : List (ℝ × ℝ)) (last : ℕ) (g : ℝ → ℝ) : Prop where
  before : ∀ first, ranges.head? = some first → ∀ x ≤ first.1, g x = f first.1
  after : ∀ final, ranges.getLast? = some final → ∀ x, final.2 ≤ x → g x = f final.2
  between : ∀ range ∈ ranges, ∀ k < last, ∀ x,
    SampleTable.position range.1 range.2 k last ≤ x →
    x ≤ SampleTable.position range.1 range.2 (k + 1) last →
    g x = f (SampleTable.position range.1 range.2 k last) +
      (f (SampleTable.position range.1 range.2 (k + 1) last) -
          f (SampleTable.position range.1 range.2 k last)) *
        (x - SampleTable.position range.1 range.2 k last) /
        (SampleTable.position range.1 range.2 (k + 1) last -
          SampleTable.position range.1 range.2 k last)

/-- **The tables of a function interpolate it.** -/
theorem SampledCurve.interpolates_sample {ranges : List (ℝ × ℝ)} (chained : Chained ranges)
    (f : ℝ → ℝ) (precision : ℕ) :
    Interpolates f ranges (max precision 2 - 1) (sample f ranges precision).lookup where
  before first isFirst x atFirst := by
    obtain ⟨final, isFinal⟩ : ∃ final, ranges.getLast? = some final := by
      cases ranges with
      | nil => cases isFirst
      | cons range rest => exact ⟨_, List.getLast?_eq_some_getLast (List.cons_ne_nil _ _)⟩
    rw [lookup_eq isFirst isFinal, if_pos atFirst]
  after final isFinal x atFinal := by
    obtain ⟨first, isFirst⟩ : ∃ first, ranges.head? = some first := by
      cases ranges with
      | nil => cases isFinal
      | cons range rest => exact ⟨range, rfl⟩
    rw [List.head?_eq_getElem?] at isFirst
    rw [List.getLast?_eq_getElem?] at isFinal
    rw [lookup_eq (by rwa [List.head?_eq_getElem?]) (by rwa [List.getLast?_eq_getElem?]),
      if_neg, if_pos atFinal]
    have start := chained.start_le_start isFirst isFinal (Nat.zero_le _)
    have wide := chained.wide final (List.mem_of_getElem? isFinal)
    exact not_le_of_gt ((start.trans_lt wide).trans_le atFinal)
  between range member k before x low high := by
    have steps : 0 < max precision 2 - 1 := by omega
    have wide := chained.wide range member
    have start := (SampleTable.position_mem wide steps before.le).1.trans low
    have stop := high.trans (SampleTable.position_mem wide steps before).2
    rw [lookup_sample chained member start stop,
      SampleTable.lookup_eq_interpolate wide steps,
      SampleTable.interpolate_between wide steps before low high]

namespace Interpolates

variable {f g : ℝ → ℝ} {ranges : List (ℝ × ℝ)} {last : ℕ}

/-- The places of the samples themselves. -/
theorem at_position (interpolates : Interpolates f ranges last g) (chained : Chained ranges)
    (some : 0 < last) {range : ℝ × ℝ} (member : range ∈ ranges) {k : ℕ} (within : k ≤ last) :
    g (SampleTable.position range.1 range.2 k last) =
      f (SampleTable.position range.1 range.2 k last) := by
  have grows := SampleTable.position_lt_succ (chained.wide range member) some
  rcases Nat.lt_or_eq_of_le within with inner | rfl
  · rw [interpolates.between range member k inner _ le_rfl (grows k).le, sub_self, mul_zero,
      zero_div, add_zero]
  · obtain ⟨before, rfl⟩ : ∃ before, k = before + 1 := Nat.exists_eq_succ_of_ne_zero some.ne'
    rw [interpolates.between range member before (Nat.lt_succ_self _) _ (grows before).le le_rfl,
      mul_div_assoc, div_self (sub_pos.mpr (grows before)).ne', mul_one, add_sub_cancel]

/-- Where the function is linear nothing is lost. -/
theorem eq_of_linear (interpolates : Interpolates f ranges last g) (chained : Chained ranges)
    (some : 0 < last) {range : ℝ × ℝ} (member : range ∈ ranges) {slope height : ℝ}
    (linear : ∀ x, range.1 ≤ x → x ≤ range.2 → f x = slope * (x - range.1) + height) {x : ℝ}
    (low : range.1 ≤ x) (high : x ≤ range.2) : g x = f x := by
  have wide := chained.wide range member
  obtain ⟨k, before, above, below⟩ := SampleTable.exists_between wide some low high
  have first := SampleTable.position_mem wide some before.le
  have second := SampleTable.position_mem wide some before
  have step := (sub_pos.mpr (SampleTable.position_lt_succ wide some k)).ne'
  rw [interpolates.between range member k before x above below, linear _ first.1 first.2,
    linear _ second.1 second.2, linear x low high]
  field_simp
  ring

end Interpolates

/-! ### Curves of paths -/

namespace Path

/-- Every segment of two or more is an end of a joint. -/
theorem exists_pair {segments : List (Segment ℝ)} (two : 2 ≤ segments.length)
    {segment : Segment ℝ} (member : segment ∈ segments) :
    ∃ joint ∈ pairs segments, segment = joint.1 ∨ segment = joint.2 := by
  induction segments using pairs.induct with
  | case1 left right rest ih =>
    rcases List.mem_cons.mp member with rfl | later
    · exact ⟨_, List.mem_cons_self, .inl rfl⟩
    · obtain _ | ⟨next, rest⟩ := rest
      · exact ⟨_, List.mem_cons_self, .inr (List.mem_singleton.mp later)⟩
      · obtain ⟨joint, inside, isEnd⟩ := ih (by simp) later
        exact ⟨joint, List.mem_cons_of_mem _ inside, isEnd⟩
  | case2 segments short =>
    match segments, two with
    | left :: right :: rest, _ => exact absurd rfl (short left right rest)

end Path

/-- The branches of consecutive joints follow one another without a gap. -/
theorem Branch.joined_of_pairs {α : Type} [Scalar α] [LawfulSame α] {segments : List (Segment α)}
    {branches : List (Branch α)}
    (joins : List.Forall₂ (fun joint branch => branch.Joins joint.1.toKnot joint.2.toKnot)
      (Path.pairs segments) branches) :
    branches.IsChain fun left right => left.stop = right.start := by
  induction segments using Path.pairs.induct generalizing branches with
  | case1 left right rest ih =>
    cases joins with
    | cons first later =>
      rename_i branch tail
      cases tail with
      | nil => exact .singleton _
      | cons next tail =>
        refine List.isChain_cons_cons.mpr ⟨?_, ih later⟩
        obtain _ | ⟨following, rest⟩ := rest
        · cases later
        · cases later with
          | cons second _ => rw [first.stop, second.start]
  | case2 segments short =>
    have none : Path.pairs segments = [] := by
      unfold Path.pairs
      split
      · exact absurd rfl (short _ _ _)
      · rfl
    rw [none] at joins
    cases joins
    exact .nil

section Built

variable {pool : SolverPool ℝ} {path : Path ℝ} {curve : Curve ℝ}

/-- The intervals of a curve are those of its path. -/
theorem buildCurve_ranges (built : (buildCurve pool path).1 = .ok curve) :
    curve.ranges = path.normalized.ranges := by
  have joins := buildCurve_joins built
  unfold Curve.ranges Path.ranges
  generalize path.normalized.joints = joints at joins
  generalize curve.branches = branches at joins
  induction joins with
  | nil => rfl
  | cons first _ ih => rw [List.map_cons, List.map_cons, ih, first.start, first.stop]

theorem buildCurve_chained (built : (buildCurve pool path).1 = .ok curve) :
    Chained curve.ranges where
  wide range member := by
    obtain ⟨branch, inside, rfl⟩ := List.mem_map.mp member
    obtain ⟨joint, -, joins⟩ := exists_joint built inside
    rw [joins.start, joins.stop]
    exact joins.x_lt
  joined := by
    unfold Curve.ranges
    rw [List.isChain_map]
    exact (Branch.joined_of_pairs (buildCurve_joins built)).imp fun left right same =>
      congrArg (·.x) same

/-- The anchors of a path are ends of its intervals. -/
theorem exists_range_of_anchor (built : (buildCurve pool path).1 = .ok curve)
    {segment : Segment ℝ} (member : segment ∈ path.normalized.segments) :
    ∃ range ∈ path.normalized.ranges, segment.point.x = range.1 ∨ segment.point.x = range.2 := by
  obtain ⟨⟨left, right⟩, inside, isEnd⟩ := Path.exists_pair (buildCurve_two built) member
  refine ⟨_, List.mem_map.mpr ⟨(left, right), inside, rfl⟩, ?_⟩
  rcases isEnd with rfl | rfl
  · exact .inl rfl
  · exact .inr rfl

end Built

/-! ### The values on a joint -/

theorem Curve.eval_real (curve : Curve ℝ) (t : ℝ) : curve.eval t = evalBranches t curve.branches := by
  obtain ⟨branches⟩ := curve
  cases branches with
  | nil => rfl
  | cons first rest =>
    unfold eval
    rw [List.head?_cons, List.getLast?_eq_some_getLast (List.cons_ne_nil _ _)]
    rfl

/-- **On a joint, both its ends included, a curve has the values of its branch.** -/
theorem Curve.evalBranches_of_mem {branches : List (Branch ℝ)}
    (chained : Chained (Curve.mk branches).ranges)
    (joined : branches.IsChain fun left right => left.stop = right.start)
    (meets : ∀ branch ∈ branches, branch.Meets) {branch : Branch ℝ}
    (member : branch ∈ branches) {t : ℝ} (low : branch.start.x ≤ t) (high : t ≤ branch.stop.x) :
    evalBranches t branches = branch.eval t := by
  induction branches generalizing branch with
  | nil => cases member
  | cons first rest ih =>
    obtain _ | ⟨next, rest⟩ := rest
    · rw [List.mem_singleton.mp member]
      rfl
    have later := @ih chained.tail joined.tail
      (fun other inside => meets other (List.mem_cons_of_mem _ inside))
    rw [evalBranches]
    split_ifs with before
    · rcases List.mem_cons.mp member with rfl | inside
      · rfl
      · have beyond := chained.head_le (List.mem_map.mpr ⟨branch, inside, rfl⟩)
        exact absurd before (not_lt_of_ge (beyond.trans low))
    · rcases List.mem_cons.mp member with rfl | inside
      · -- at the end of the first branch the next one has taken over, from the same anchor
        have atStop : t = branch.stop.x := high.antisymm (le_of_not_gt before)
        have joint : branch.stop = next.start := (List.isChain_cons_cons.mp joined).1
        have atNext : t = next.start.x := by rw [atStop, joint]
        have reaches : next.start.x ≤ next.stop.x :=
          (chained.wide _ (List.mem_cons_of_mem _ List.mem_cons_self)).le
        calc evalBranches t (next :: rest)
            = next.eval t := later List.mem_cons_self atNext.ge (atNext.trans_le reaches)
          _ = next.start.y := by
              rw [atNext]
              exact (meets next (List.mem_cons_of_mem _ List.mem_cons_self)).start
          _ = branch.eval t := by rw [atStop, (meets branch List.mem_cons_self).stop, joint]
      · exact later inside low high

/-- The curve of a path has the values of its branches. -/
theorem buildCurve_eval {pool : SolverPool ℝ} {path : Path ℝ} {curve : Curve ℝ}
    (built : (buildCurve pool path).1 = .ok curve) {branch : Branch ℝ}
    (member : branch ∈ curve.branches) {t : ℝ} (low : branch.start.x ≤ t)
    (high : t ≤ branch.stop.x) : curve.eval t = branch.eval t := by
  have meets : ∀ other ∈ curve.branches, other.Meets := by
    intro other isOther
    obtain ⟨joint, -, joins⟩ := exists_joint built isOther
    exact joins.meets
  rw [curve.eval_real]
  exact Curve.evalBranches_of_mem (buildCurve_chained built)
    (Branch.joined_of_pairs (buildCurve_joins built)) meets member low high

/-- A curve without curved joints is linear on every joint. -/
theorem buildCurve_linear {pool : SolverPool ℝ} {path : Path ℝ} {curve : Curve ℝ}
    (built : (buildCurve pool path).1 = .ok curve) (straight : curve.hasCubic = false)
    {range : ℝ × ℝ} (member : range ∈ curve.ranges) :
    ∃ slope height, ∀ x, range.1 ≤ x → x ≤ range.2 →
      curve.eval x = slope * (x - range.1) + height := by
  obtain ⟨branch, inside, rfl⟩ := List.mem_map.mp member
  have line : branch.isCubic = false := by
    simpa using List.any_eq_false.mp straight branch inside
  obtain ⟨start, stop, slope | shared⟩ := branch
  · exact ⟨slope, start.y, fun x low high => buildCurve_eval built inside low high⟩
  · cases line

/-! ### The two modes -/

/-- A sampled compile gives the samples of the curve. -/
theorem compile_sampled {α : Type} [Scalar α] [Numeral α] {pool : SolverPool α} {path : Path α}
    {curve : Curve α} {options : CompileOptions} {compiled : Compiled α}
    (built : (buildCurve pool path).1 = .ok curve) (sampling : options.useSampling = true)
    (ok : (compile pool path options).1 = .ok compiled) :
    compiled.function =
      .sampled (SampledCurve.sample curve.eval curve.ranges options.precision) := by
  unfold compile at ok
  dsimp only at ok
  rw [built] at ok
  change (chooseFunction options curve).map _ = _ at ok
  unfold chooseFunction at ok
  rw [if_pos sampling] at ok
  dsimp only at ok
  split at ok
  · cases ok
  · cases ok
    rfl

/-- **A sampled compile interpolates the exact one.** Whatever the precision, a path that compiles
to samples also compiles exactly, and the samples interpolate that curve over its joints: level
before the first anchor and after the last one, linear between neighbouring places of a joint. So the
two agree at all these places and at all anchors, and everywhere between the outer anchors when no
joint is curved. -/
theorem compile_interpolates [Numeral ℝ] {pool : SolverPool ℝ} {path : Path ℝ}
    {options : CompileOptions} {compiled : Compiled ℝ} (sampling : options.useSampling = true)
    (ok : (compile pool path options).1 = .ok compiled) :
    ∃ exact : ExactCompiled ℝ, (compileExact pool path).1 = .ok exact ∧
      ∃ first final, path.normalized.ranges.head? = some first ∧
        path.normalized.ranges.getLast? = some final ∧
        Interpolates exact.curve.eval path.normalized.ranges (max options.precision 2 - 1)
          compiled.eval ∧
        (∀ range ∈ path.normalized.ranges, ∀ k ≤ max options.precision 2 - 1,
          compiled.eval (SampleTable.position range.1 range.2 k (max options.precision 2 - 1)) =
            exact.curve.eval
              (SampleTable.position range.1 range.2 k (max options.precision 2 - 1))) ∧
        (∀ segment ∈ path.normalized.segments,
          compiled.eval segment.point.x = exact.curve.eval segment.point.x) ∧
        (exact.curve.hasCubic = false → ∀ x, first.1 ≤ x → x ≤ final.2 →
          compiled.eval x = exact.curve.eval x) := by
  cases built : (buildCurve pool path).1 with
  | error error =>
    unfold compile at ok
    dsimp only at ok
    rw [built] at ok
    cases ok
  | ok curve =>
    have chained := buildCurve_chained built
    rw [buildCurve_ranges built] at chained
    have steps : 0 < max options.precision 2 - 1 := by omega
    have sampled : compiled.eval =
        (SampledCurve.sample curve.eval path.normalized.ranges options.precision).lookup := by
      funext x
      unfold Compiled.eval
      rw [compile_sampled built sampling ok, ← buildCurve_ranges built]
      rfl
    have interpolates := SampledCurve.interpolates_sample chained curve.eval options.precision
    rw [← sampled] at interpolates
    have some : path.normalized.ranges ≠ [] := by
      have anchors : 0 < path.normalized.segments.length :=
        Nat.lt_of_lt_of_le Nat.zero_lt_two (buildCurve_two built)
      obtain ⟨range, inside, -⟩ := exists_range_of_anchor built (List.getElem_mem anchors)
      exact List.ne_nil_of_mem inside
    refine ⟨curve.withSources, ?_, _, _, List.head?_eq_some_head some,
      List.getLast?_eq_some_getLast some, interpolates,
      fun range member k within => interpolates.at_position chained steps member within, ?_, ?_⟩
    · unfold compileExact
      dsimp only
      rw [built]
      rfl
    · intro segment member
      obtain ⟨range, inside, isEnd⟩ := exists_range_of_anchor built member
      rcases isEnd with atStart | atStop
      · rw [atStart, ← SampleTable.position_zero range.1 range.2 (max options.precision 2 - 1)]
        exact interpolates.at_position chained steps inside (Nat.zero_le _)
      · rw [atStop, ← SampleTable.position_last range.1 range.2 steps]
        exact interpolates.at_position chained steps inside le_rfl
    · intro straight x low high
      obtain ⟨range, inside, above, below⟩ := chained.exists_range
        (List.head?_eq_some_head some) (List.getLast?_eq_some_getLast some) low high
      obtain ⟨slope, height, linear⟩ := buildCurve_linear built straight
        (by rw [buildCurve_ranges built]; exact inside)
      exact interpolates.eq_of_linear chained steps inside linear above below

/-- Over the reals nothing that was built is refused. -/
theorem exists_compiled [Numeral ℝ] {pool : SolverPool ℝ} {path : Path ℝ} {curve : Curve ℝ}
    (built : (buildCurve pool path).1 = .ok curve) (options : CompileOptions) :
    ∃ compiled, (compile pool path options).1 = .ok compiled := by
  have finite : ∀ sampled : SampledCurve ℝ, sampled.infiniteAt? = none := by
    intro sampled
    refine Array.findSome?_eq_none_iff.mpr fun table _ => ?_
    exact Option.map_eq_none_iff.mpr (Array.findIdx?_eq_none_iff.mpr fun value _ => rfl)
  unfold compile
  dsimp only
  rw [built]
  show ∃ compiled, (chooseFunction options curve).map _ = _
  unfold chooseFunction
  dsimp only
  rw [finite]
  split
  · exact ⟨_, rfl⟩
  · exact ⟨_, rfl⟩

/-- Three samples of an easing: a quarter of the way its value is halfway between those at the start
and in the middle. -/
theorem interpolates_easing :
    let _text : Numeral ℝ := ⟨fun _ => "", fun _ => ""⟩
    let path := Path.oneJoint
      ⟨⟨0, 0⟩, Vec.zero, ⟨1 / 4, 1 / 2⟩⟩ ⟨⟨1, 1⟩, ⟨-1 / 4, -1 / 2⟩, Vec.zero⟩
    let options : CompileOptions := ⟨true, false, 3⟩
    options.useSampling = true ∧
      ∃ compiled exact, (compile SolverPool.empty path options).1 = .ok compiled ∧
        (compileExact SolverPool.empty path).1 = .ok exact ∧
        compiled.eval (1 / 4) = (exact.curve.eval 0 + exact.curve.eval (1 / 2)) / 2 := by
  intro text path options
  have ranges : path.normalized.ranges = [(0, 1)] := by
    rw [Path.normalized_oneJoint]
    rfl
  obtain ⟨shared, built⟩ := buildCurve_oneJoint
    ⟨⟨0, 0⟩, Vec.zero, ⟨1 / 4, 1 / 2⟩⟩ ⟨⟨1, 1⟩, ⟨-1 / 4, -1 / 2⟩, Vec.zero⟩
    (by norm_num) (by norm_num) (by norm_num) (by norm_num)
  obtain ⟨compiled, ok⟩ := @exists_compiled text _ _ _ built options
  obtain ⟨exact, exactOk, -, -, -, -, interpolates, -⟩ :=
    @compile_interpolates text _ _ options compiled rfl ok
  have steps : max options.precision 2 - 1 = 2 := rfl
  refine ⟨rfl, compiled, exact, ok, exactOk, ?_⟩
  rw [ranges, steps] at interpolates
  have start : SampleTable.position (0 : ℝ) 1 0 2 = 0 := SampleTable.position_zero _ _ _
  have middle : SampleTable.position (0 : ℝ) 1 (0 + 1) 2 = 1 / 2 := by
    unfold SampleTable.position
    norm_num
  have value := interpolates.between (0, 1) List.mem_cons_self 0 Nat.zero_lt_two (1 / 4)
    (start.trans_le (by norm_num)) (le_of_le_of_eq (by norm_num) middle.symm)
  rw [start, middle] at value
  rw [value]
  ring

end Easing
