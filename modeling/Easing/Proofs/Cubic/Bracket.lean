/-
**The search for a parameter: the interval of the table, and its halvings.**

Read over the reals, for an x strictly between 0 and 1. The values at the knots rise from 0 to 1, so
the scan ends at the knot after x and the interval before it encloses x. A halving keeps the half
that encloses x. The search by halving returns the middle of one of these intervals, the first that
is near enough in x or the last of ten.

* `UnitCubic.firstBeyond_spec`, `UnitCubic.bracket_spec`: what the scan finds.
* `UnitCubic.guess_mem`: the linear guess is inside.
* `UnitCubic.Encloses.halve`, `UnitCubic.Encloses.iterate`: one halving, and every run of halvings.
* `UnitCubic.bisect_eq_middle`: the interval at which the search stops.
* `UnitCubic.search_sound`: the table, the scan, the guess and the halvings of one search.
-/
import Mathlib
import Easing.Proofs.Cubic.Monotone

set_option linter.unusedSectionVars false

namespace Easing

namespace UnitCubic

/-! ### Constants of the search -/

theorem step_real : (step : ℝ) = 1 / 10 := by
  unfold step
  rw [Scalar.one_real]

theorem knot_real (index : Nat) : (knot index : ℝ) = index / 10 := by
  unfold knot
  rw [step_real, mul_one_div]

theorem knot_add_step (index : Nat) : (knot index : ℝ) + step = knot (index + 1) := by
  rw [knot_real, knot_real, step_real, Nat.cast_add_one, add_div]

theorem bisectTolerance_real : (bisectTolerance : ℝ) = 1 / 10 ^ 7 := by
  show (1e-7 : ℝ) = 1 / 10 ^ 7
  norm_num

variable (cubic : UnitCubic ℝ)

/-! ### The coordinate -/

section Coordinate

variable {s t : ℝ}

theorem x1_real : 0 ≤ cubic.x1 ∧ cubic.x1 ≤ 1 := inUnit_real.mp cubic.x1_inUnit

theorem x2_real : 0 ≤ cubic.x2 ∧ cubic.x2 ≤ 1 := inUnit_real.mp cubic.x2_inUnit

@[simp] theorem xAt_zero : cubic.xAt 0 = 0 := Cubic.value_zero _ _

@[simp] theorem xAt_one : cubic.xAt 1 = 1 := Cubic.value_one _ _

theorem continuous_xAt : Continuous cubic.xAt := Cubic.continuous_value _ _

theorem xAt_le_xAt (low : 0 ≤ s) (forward : s ≤ t) (high : t ≤ 1) : cubic.xAt s ≤ cubic.xAt t :=
  Cubic.value_le_value cubic.x1_real cubic.x2_real low forward high

theorem xAt_strictMonoOn : StrictMonoOn cubic.xAt (Set.Icc 0 1) :=
  Cubic.value_strictMonoOn cubic.x1_real cubic.x2_real

end Coordinate

/-! ### The table -/

@[simp] theorem knotX_zero : cubic.knotX 0 = 0 := by
  unfold knotX
  rw [knot_real, Nat.cast_zero, zero_div, xAt_zero]

@[simp] theorem knotX_last : cubic.knotX intervals = 1 := by
  have last : (knot intervals : ℝ) = 1 := by
    rw [knot_real]
    norm_num [intervals]
  unfold knotX
  rw [last, xAt_one]

/-- The knots before the last one begin an interval inside the unit interval. -/
theorem knot_mem {index : Nat} (inside : index < intervals) :
    0 ≤ (knot index : ℝ) ∧ (knot index : ℝ) + step ≤ 1 := by
  have whole : ((index + 1 : Nat) : ℝ) ≤ 10 := Nat.cast_le.mpr inside
  rw [knot_add_step, knot_real, knot_real, div_le_one (by norm_num)]
  exact ⟨by positivity, whole⟩

theorem knotX_le_succ {index : Nat} (inside : index < intervals) :
    cubic.knotX index ≤ cubic.knotX (index + 1) := by
  obtain ⟨low, high⟩ := knot_mem inside
  rw [knot_add_step] at high
  refine cubic.xAt_le_xAt low ?_ high
  rw [knot_real, knot_real, Nat.cast_add_one]
  linarith

theorem knotX_le_knotX {first second : Nat} (forward : first ≤ second)
    (inside : second ≤ intervals) : cubic.knotX first ≤ cubic.knotX second := by
  induction second, forward using Nat.le_induction with
  | base => exact le_rfl
  | succ second _ ih => exact (ih (Nat.le_of_succ_le inside)).trans (cubic.knotX_le_succ inside)

/-- **Where the scan stops.** The knot before is not beyond `x`, and the knot there is, unless the
scan has gone on to its end. -/
theorem firstBeyond_spec (x : ℝ) (index left : Nat) :
    index ≤ cubic.firstBeyond x index left ∧
      cubic.firstBeyond x index left ≤ index + left ∧
      (index < cubic.firstBeyond x index left →
        cubic.knotX (cubic.firstBeyond x index left - 1) ≤ x) ∧
      (cubic.firstBeyond x index left < index + left →
        x < cubic.knotX (cubic.firstBeyond x index left)) := by
  induction left generalizing index with
  | zero => exact ⟨le_rfl, le_rfl, fun later => absurd later (lt_irrefl _),
      fun earlier => absurd earlier (lt_irrefl _)⟩
  | succ left ih =>
    unfold firstBeyond
    split
    next passed =>
      obtain ⟨atLeast, atMost, before, beyond⟩ := ih (index + 1)
      refine ⟨by omega, by omega, fun _ => ?_, fun earlier => beyond (by omega)⟩
      rcases atLeast.eq_or_lt with same | later
      · rw [← same]
        exact passed
      · exact before later
    next stopped =>
      exact ⟨le_rfl, by omega, fun later => absurd later (lt_irrefl _),
        fun _ => not_le.mp stopped⟩

section Search

variable {x : ℝ} (positive : 0 < x) (below : x < 1)

include positive below

/-- **The interval that the scan finds holds `x`.** -/
theorem bracket_spec :
    cubic.bracket x < intervals ∧ cubic.knotX (cubic.bracket x) ≤ x ∧
      x < cubic.knotX (cubic.bracket x + 1) := by
  obtain ⟨atLeast, atMost, before, beyond⟩ := cubic.firstBeyond_spec x 1 (intervals - 1)
  have next : cubic.bracket x + 1 = cubic.firstBeyond x 1 (intervals - 1) :=
    Nat.sub_add_cancel atLeast
  have range : 1 + (intervals - 1) = intervals := rfl
  rw [range] at atMost beyond
  refine ⟨by omega, ?_, ?_⟩
  · rcases atLeast.eq_or_lt with same | later
    · rw [show cubic.bracket x = 0 by omega, knotX_zero]
      exact positive.le
    · exact before later
  · rw [next]
    rcases atMost.eq_or_lt with same | earlier
    · rw [same, knotX_last]
      exact below
    · exact beyond earlier

/-- No other interval does. -/
theorem bracket_eq {index : Nat} (inside : index < intervals) (before : cubic.knotX index ≤ x)
    (beyond : x < cubic.knotX (index + 1)) : cubic.bracket x = index := by
  obtain ⟨insideToo, beforeToo, beyondToo⟩ := cubic.bracket_spec positive below
  refine le_antisymm (le_of_not_gt fun later => ?_) (le_of_not_gt fun earlier => ?_)
  · exact absurd (cubic.knotX_le_knotX later insideToo.le) (by linarith)
  · exact absurd (cubic.knotX_le_knotX earlier inside.le) (by linarith)

theorem span_pos : 0 < cubic.knotX (cubic.bracket x + 1) - cubic.knotX (cubic.bracket x) := by
  obtain ⟨-, before, beyond⟩ := cubic.bracket_spec positive below
  exact sub_pos.mpr (before.trans_lt beyond)

/-- The guess divides the interval as `x` divides its image. -/
theorem guess_real :
    cubic.guess x (cubic.bracket x) = knot (cubic.bracket x) +
      (x - cubic.knotX (cubic.bracket x)) /
        (cubic.knotX (cubic.bracket x + 1) - cubic.knotX (cubic.bracket x)) * step := by
  have wide := (cubic.span_pos positive below).ne'
  have span : (cubic.knotX (cubic.bracket x + 1) - cubic.knotX (cubic.bracket x) !=
      @OfNat.ofNat ℝ 0 Scalar.instOfNat) = true := by
    rw [Scalar.zero_real]
    exact bne_iff_ne.mpr wide
  simp only [guess, if_pos span]

/-- **The guess is in the interval**, before its end. -/
theorem guess_mem :
    cubic.guess x (cubic.bracket x) ∈
      Set.Ico (knot (cubic.bracket x)) (knot (cubic.bracket x) + step) := by
  obtain ⟨-, before, beyond⟩ := cubic.bracket_spec positive below
  have wide := cubic.span_pos positive below
  have fraction : (x - cubic.knotX (cubic.bracket x)) /
      (cubic.knotX (cubic.bracket x + 1) - cubic.knotX (cubic.bracket x)) ∈ Set.Ico (0 : ℝ) 1 :=
    ⟨div_nonneg (sub_nonneg.mpr before) wide.le, (div_lt_one wide).mpr (by linarith)⟩
  have apart : (0 : ℝ) < step := by
    rw [step_real]
    norm_num
  rw [cubic.guess_real positive below]
  exact ⟨le_add_of_nonneg_right (mul_nonneg fraction.1 apart.le),
    add_lt_add_right (mul_lt_of_lt_one_left apart fraction.2) _⟩

end Search

/-! ### Halving -/

/-- The middle of an interval. -/
noncomputable def middle (part : ℝ × ℝ) : ℝ := part.1 + (part.2 - part.1) / 2

/-- The half of an interval with which the search for `x` goes on. -/
noncomputable def halve (x : ℝ) (part : ℝ × ℝ) : ℝ × ℝ :=
  if 0 < cubic.xAt (middle part) - x then (part.1, middle part) else (middle part, part.2)

/-- An interval, and `x` between the values at its ends. -/
structure Encloses (x : ℝ) (part : ℝ × ℝ) : Prop where
  forward : part.1 ≤ part.2
  start : cubic.xAt part.1 ≤ x
  stop : x ≤ cubic.xAt part.2

variable {cubic} {x : ℝ} {part : ℝ × ℝ}

theorem middle_mem (forward : part.1 ≤ part.2) : middle part ∈ Set.Icc part.1 part.2 := by
  unfold middle
  exact ⟨by linarith, by linarith⟩

/-- **One halving goes on with an interval that encloses `x`**, inside the one before and half as
wide. -/
theorem Encloses.halve (encloses : cubic.Encloses x part) :
    cubic.Encloses x (cubic.halve x part) ∧
      Set.Icc (cubic.halve x part).1 (cubic.halve x part).2 ⊆ Set.Icc part.1 part.2 ∧
      (cubic.halve x part).2 - (cubic.halve x part).1 = (part.2 - part.1) / 2 := by
  obtain ⟨after, before⟩ := middle_mem encloses.forward
  unfold UnitCubic.halve
  split
  next beyond =>
    refine ⟨⟨after, encloses.start, (sub_pos.mp beyond).le⟩, Set.Icc_subset_Icc_right before, ?_⟩
    unfold middle
    ring
  next within =>
    refine ⟨⟨before, sub_nonpos.mp (not_lt.mp within), encloses.stop⟩,
      Set.Icc_subset_Icc_left after, ?_⟩
    unfold middle
    ring

/-- **Every run of halvings keeps `x` enclosed.** -/
theorem Encloses.iterate (encloses : cubic.Encloses x part) (count : Nat) :
    cubic.Encloses x ((cubic.halve x)^[count] part) ∧
      Set.Icc ((cubic.halve x)^[count] part).1 ((cubic.halve x)^[count] part).2 ⊆
        Set.Icc part.1 part.2 ∧
      ((cubic.halve x)^[count] part).2 - ((cubic.halve x)^[count] part).1 =
        (part.2 - part.1) / 2 ^ count := by
  induction count with
  | zero => exact ⟨encloses, Set.Subset.rfl, by rw [pow_zero, div_one]; rfl⟩
  | succ count ih =>
    obtain ⟨enclosed, inside, width⟩ := ih
    obtain ⟨halfEnclosed, halfInside, halfWidth⟩ := enclosed.halve
    rw [Function.iterate_succ_apply']
    refine ⟨halfEnclosed, halfInside.trans inside, ?_⟩
    rw [halfWidth, width, pow_succ, div_div]

/-- An enclosed value is reached, at most half the width away from the middle. -/
theorem Encloses.exists_root (encloses : cubic.Encloses x part) :
    ∃ root, |middle part - root| ≤ (part.2 - part.1) / 2 ∧ cubic.xAt root = x := by
  obtain ⟨root, ⟨after, before⟩, reached⟩ :=
    intermediate_value_Icc encloses.forward cubic.continuous_xAt.continuousOn
      ⟨encloses.start, encloses.stop⟩
  refine ⟨root, ?_, reached⟩
  unfold middle
  rw [abs_le]
  exact ⟨by linarith, by linarith⟩

variable (cubic x)

/-- **Where the search by halving stops**: at the first interval whose middle is near enough in x,
or after the last halving. -/
theorem bisect_eq_middle (steps : Nat) (part : ℝ × ℝ) :
    ∃ count ≤ steps,
      cubic.bisect x steps part.1 part.2 = middle ((cubic.halve x)^[count] part) ∧
      (∀ earlier < count,
        bisectTolerance < |cubic.xAt (middle ((cubic.halve x)^[earlier] part)) - x|) ∧
      (|cubic.xAt (middle ((cubic.halve x)^[count] part)) - x| ≤ bisectTolerance ∨
        count = steps) := by
  induction steps generalizing part with
  | zero =>
    refine ⟨0, le_rfl, ?_, fun earlier none => absurd none (Nat.not_lt_zero _), .inr rfl⟩
    unfold bisect
    exact ite_self _
  | succ steps ih =>
    by_cases near : |cubic.xAt (middle part) - x| ≤ bisectTolerance
    · refine ⟨0, Nat.zero_le _, ?_, fun earlier none => absurd none (Nat.not_lt_zero _), .inl near⟩
      unfold bisect
      exact if_pos near
    · have goesOn : cubic.bisect x (steps + 1) part.1 part.2 =
          cubic.bisect x steps (cubic.halve x part).1 (cubic.halve x part).2 := by
        have beyond : 0 < cubic.xAt (middle part) - x ↔
            @OfNat.ofNat ℝ 0 Scalar.instOfNat < cubic.xAt (middle part) - x := by
          rw [Scalar.zero_real]
        rw [bisect]
        refine (if_neg near).trans ?_
        unfold UnitCubic.halve
        split
        next isBeyond => rw [if_pos (beyond.mpr isBeyond)]; rfl
        next isWithin => rw [if_neg fun isBeyond => isWithin (beyond.mp isBeyond)]; rfl
      obtain ⟨count, within, result, far, stopped⟩ := ih (cubic.halve x part)
      refine ⟨count + 1, Nat.succ_le_succ within, goesOn.trans result, ?_, ?_⟩
      · intro earlier before
        cases earlier with
        | zero => exact not_le.mp near
        | succ earlier => exact far earlier (Nat.lt_of_succ_lt_succ before)
      · exact stopped.imp_right (congrArg (· + 1))

variable {cubic x}

/-- **The search by halving is sound**: its result is inside the interval, and near enough in x or
half the last width away from a parameter whose x is exact. -/
theorem Encloses.bisect (encloses : cubic.Encloses x part) (steps : Nat) :
    cubic.bisect x steps part.1 part.2 ∈ Set.Icc part.1 part.2 ∧
      (|cubic.xAt (cubic.bisect x steps part.1 part.2) - x| ≤ bisectTolerance ∨
        ∃ root, |cubic.bisect x steps part.1 part.2 - root| ≤ (part.2 - part.1) / 2 ^ (steps + 1) ∧
          cubic.xAt root = x) := by
  obtain ⟨count, -, result, -, stopped⟩ := cubic.bisect_eq_middle x steps part
  obtain ⟨enclosed, inside, width⟩ := encloses.iterate count
  rw [result]
  refine ⟨inside (middle_mem enclosed.forward), stopped.imp_right ?_⟩
  rintro rfl
  obtain ⟨root, near, reached⟩ := enclosed.exists_root
  refine ⟨root, near.trans_eq ?_, reached⟩
  rw [width, div_div, pow_succ]

/-! ### One search -/

section OneSearch

variable (cubic x)

/-- The interval of the table that the scan finds, as the search by halving gets it. -/
noncomputable def bracketPart : ℝ × ℝ := (knot (cubic.bracket x), knot (cubic.bracket x) + step)

variable {x} (positive : 0 < x) (below : x < 1)

include positive below

theorem bracketPart_encloses : cubic.Encloses x (cubic.bracketPart x) := by
  obtain ⟨-, before, beyond⟩ := cubic.bracket_spec positive below
  obtain ⟨left, right⟩ := cubic.guess_mem positive below
  refine ⟨left.trans right.le, before, ?_⟩
  show x ≤ cubic.xAt (knot (cubic.bracket x) + step)
  rw [knot_add_step]
  exact beyond.le

/-- **A search is sound in its table, its scan, its guess and its halvings.** The values at the
knots rise from 0 to 1; the interval found encloses `x` over a proper rise and holds the guess; every
run of halvings keeps `x` enclosed; and the search by halving, which returns the middle of such an
interval after nine halvings at most, ends inside the interval, within the tolerance in x or within
`0.1 / 2 ^ 10` of a parameter whose x is exact. -/
theorem search_sound :
    (cubic.knotX 0 = 0 ∧ cubic.knotX intervals = 1 ∧
      ∀ index < intervals, cubic.knotX index ≤ cubic.knotX (index + 1)) ∧
    (cubic.bracket x < intervals ∧
      cubic.xAt (knot (cubic.bracket x)) ≤ x ∧ x ≤ cubic.xAt (knot (cubic.bracket x) + step) ∧
      cubic.knotX (cubic.bracket x + 1) - cubic.knotX (cubic.bracket x) ≠ 0 ∧
      cubic.guess x (cubic.bracket x) ∈
        Set.Icc (knot (cubic.bracket x)) (knot (cubic.bracket x) + step)) ∧
    (∀ count,
      cubic.xAt ((cubic.halve x)^[count] (cubic.bracketPart x)).1 ≤ x ∧
        x ≤ cubic.xAt ((cubic.halve x)^[count] (cubic.bracketPart x)).2) ∧
    (∃ count < bisectSteps,
      cubic.bisect x (bisectSteps - 1) (knot (cubic.bracket x)) (knot (cubic.bracket x) + step) =
        middle ((cubic.halve x)^[count] (cubic.bracketPart x)) ∧
      ∀ earlier < count, bisectTolerance <
        |cubic.xAt (middle ((cubic.halve x)^[earlier] (cubic.bracketPart x))) - x|) ∧
    ∃ t, t = cubic.bisect x (bisectSteps - 1) (knot (cubic.bracket x))
        (knot (cubic.bracket x) + step) ∧
      t ∈ Set.Icc (knot (cubic.bracket x)) (knot (cubic.bracket x) + step) ∧
      (|cubic.xAt t - x| ≤ 1 / 10 ^ 7 ∨
        ∃ root, |t - root| ≤ 0.1 / 2 ^ 10 ∧ cubic.xAt root = x) := by
  have encloses := cubic.bracketPart_encloses positive below
  obtain ⟨inside, -, -⟩ := cubic.bracket_spec positive below
  obtain ⟨count, within, result, far, -⟩ :=
    cubic.bisect_eq_middle x (bisectSteps - 1) (cubic.bracketPart x)
  obtain ⟨mem, near⟩ := encloses.bisect (bisectSteps - 1)
  refine ⟨⟨cubic.knotX_zero, cubic.knotX_last, fun index => cubic.knotX_le_succ⟩,
    ⟨inside, encloses.start, encloses.stop, (cubic.span_pos positive below).ne',
      Set.Ico_subset_Icc_self (cubic.guess_mem positive below)⟩,
    fun count => ⟨(encloses.iterate count).1.start, (encloses.iterate count).1.stop⟩,
    ⟨count, Nat.lt_succ_of_le within, result, far⟩, _, rfl, mem, ?_⟩
  rw [bisectTolerance_real] at near
  refine near.imp_right ?_
  rintro ⟨root, close, reached⟩
  refine ⟨root, close.trans_eq ?_, reached⟩
  show (knot (cubic.bracket x) + step - knot (cubic.bracket x)) / 2 ^ 10 = (0.1 : ℝ) / 2 ^ 10
  rw [add_sub_cancel_left, step_real]
  norm_num

end OneSearch

/-! ### A curve that stands upright -/

/-- The unit cubic that stands upright at its middle: its x rises by `4 (t - 1/2) ^ 3` only. -/
noncomputable def upright : UnitCubic ℝ where
  x1 := 1
  y1 := 0
  x2 := 0
  y2 := 1
  x1_inUnit := inUnit_real.mpr ⟨zero_le_one, le_rfl⟩
  x2_inUnit := inUnit_real.mpr ⟨le_rfl, zero_le_one⟩

theorem upright_search_sound :
    (0 : ℝ) < 0.5004 ∧ (0.5004 : ℝ) < 1 ∧
      upright.xAt (knot (upright.bracket 0.5004)) ≤ 0.5004 ∧
      0.5004 ≤ upright.xAt (knot (upright.bracket 0.5004) + step) ∧
      ∃ t, t = upright.bisect 0.5004 (bisectSteps - 1) (knot (upright.bracket 0.5004))
          (knot (upright.bracket 0.5004) + step) ∧
        t ∈ Set.Icc (knot (upright.bracket 0.5004)) (knot (upright.bracket 0.5004) + step) ∧
        (|upright.xAt t - 0.5004| ≤ 1 / 10 ^ 7 ∨
          ∃ root, |t - root| ≤ 0.1 / 2 ^ 10 ∧ upright.xAt root = 0.5004) := by
  have positive : (0 : ℝ) < 0.5004 := by norm_num
  have below : (0.5004 : ℝ) < 1 := by norm_num
  obtain ⟨-, ⟨-, before, beyond, -, -⟩, -, -, found⟩ := search_sound upright positive below
  exact ⟨positive, below, before, beyond, found⟩

end UnitCubic

end Easing
