/-
**Newton's method on a cubic, followed exactly.**

Read over the reals. At a parameter `t` the error in x is `offset`, the correction of one step is
`shift`, and two numbers without a unit say how far the cubic is from its tangent over that
correction: `bend`, from the second derivative, and `twist`, from the third. A cubic has no further
derivatives, so one step changes all of them by rational functions of `bend` and `twist` alone. Where
these are small they shrink with the square of their size.

* `UnitCubic.xAt_sub`, `UnitCubic.xSlope_sub`: the cubic and its derivative a correction away.
* `UnitCubic.offset_advance`, `shift_advance`, `bend_advance`, `twist_advance`: one step.
* `UnitCubic.Near.next`: one step from near the root.
* `UnitCubic.Promising.next`: one step from a start that may overshoot.
* `UnitCubic.Promising.newton`: the steps of a search.
-/
import Mathlib
import Easing.Proofs.Cubic.Bracket

set_option linter.unusedSectionVars false

namespace Easing

namespace UnitCubic

variable (cubic : UnitCubic ℝ) (x t : ℝ)

/-! ### The cubic a correction away -/

/-- The coefficient of the cube. -/
noncomputable def leading : ℝ := Cubic.coeffA cubic.x1 cubic.x2

/-- Half the second derivative of the x coordinate. -/
noncomputable def bending : ℝ := 3 * cubic.leading * t + Cubic.coeffB cubic.x1 cubic.x2

theorem leading_real : cubic.leading = 1 - 3 * cubic.x2 + 3 * cubic.x1 := by
  unfold leading Cubic.coeffA
  rw [Scalar.one_real]

theorem bending_real : cubic.bending t = 3 * cubic.leading * t + (3 * cubic.x2 - 6 * cubic.x1) := rfl

theorem xAt_real : cubic.xAt t =
    ((1 - 3 * cubic.x2 + 3 * cubic.x1) * t + (3 * cubic.x2 - 6 * cubic.x1)) * t ^ 2 +
      3 * cubic.x1 * t :=
  Cubic.value_real t cubic.x1 cubic.x2

theorem xSlope_real : cubic.xSlope t =
    3 * (1 - 3 * cubic.x2 + 3 * cubic.x1) * t ^ 2 + 2 * (3 * cubic.x2 - 6 * cubic.x1) * t +
      3 * cubic.x1 :=
  Cubic.slope_real t cubic.x1 cubic.x2

theorem xAt_sub (h : ℝ) :
    cubic.xAt (t - h) =
      cubic.xAt t - cubic.xSlope t * h + cubic.bending t * h ^ 2 - cubic.leading * h ^ 3 := by
  rw [xAt_real, xAt_real, xSlope_real, bending_real, leading_real]
  ring

theorem xSlope_sub (h : ℝ) :
    cubic.xSlope (t - h) = cubic.xSlope t - 2 * cubic.bending t * h + 3 * cubic.leading * h ^ 2 := by
  rw [xSlope_real, xSlope_real, bending_real, leading_real]
  ring

theorem bending_sub (h : ℝ) :
    cubic.bending (t - h) = cubic.bending t - 3 * cubic.leading * h := by
  rw [bending_real, bending_real]
  ring

/-! ### The state of a search -/

/-- The error in x. -/
noncomputable def offset : ℝ := cubic.xAt t - x

/-- The correction of one step. -/
noncomputable def shift : ℝ := cubic.offset x t / cubic.xSlope t

/-- How far the second derivative takes the cubic from its tangent over the correction, as a share
of the error. -/
noncomputable def bend : ℝ := cubic.bending t * cubic.offset x t / cubic.xSlope t ^ 2

/-- How far the third derivative takes it. -/
noncomputable def twist : ℝ := cubic.leading * cubic.offset x t ^ 2 / cubic.xSlope t ^ 3

/-- The parameter after one step. -/
noncomputable def advance : ℝ := t - cubic.shift x t

/-- What one step multiplies the derivative by. -/
noncomputable def rise : ℝ := 1 - 2 * cubic.bend x t + 3 * cubic.twist x t

variable {cubic x t}

theorem newton_succ {steps : Nat} (sloped : cubic.xSlope t ≠ 0) :
    cubic.newton x (steps + 1) t = cubic.newton x steps (cubic.advance x t) := by
  have notFlat : ¬(cubic.xSlope t == @OfNat.ofNat ℝ 0 Scalar.instOfNat) = true := by
    rw [Scalar.zero_real, beq_iff_eq]
    exact sloped
  rw [newton]
  exact if_neg notFlat

theorem offset_eq_shift_mul (sloped : cubic.xSlope t ≠ 0) :
    cubic.offset x t = cubic.shift x t * cubic.xSlope t :=
  (div_mul_cancel₀ _ sloped).symm

/-! ### One step, exactly -/

section Exact

variable (sloped : cubic.xSlope t ≠ 0)

include sloped

theorem offset_advance :
    cubic.offset x (cubic.advance x t) =
      cubic.offset x t * (cubic.bend x t - cubic.twist x t) := by
  have split : cubic.offset x (cubic.advance x t) =
      cubic.offset x t - cubic.xSlope t * cubic.shift x t +
        cubic.bending t * cubic.shift x t ^ 2 - cubic.leading * cubic.shift x t ^ 3 := by
    unfold offset advance
    rw [xAt_sub]
    ring
  rw [split]
  unfold bend twist shift
  field_simp
  ring

theorem xSlope_advance :
    cubic.xSlope (cubic.advance x t) = cubic.xSlope t * cubic.rise x t := by
  unfold advance rise
  rw [xSlope_sub]
  unfold bend twist shift
  field_simp

variable (rises : cubic.rise x t ≠ 0)

include rises

theorem shift_advance :
    cubic.shift x (cubic.advance x t) =
      cubic.shift x t * (cubic.bend x t - cubic.twist x t) / cubic.rise x t := by
  rw [shift, offset_advance sloped, xSlope_advance sloped, shift]
  field_simp

theorem bend_advance :
    cubic.bend x (cubic.advance x t) =
      (cubic.bend x t - 3 * cubic.twist x t) * (cubic.bend x t - cubic.twist x t) /
        cubic.rise x t ^ 2 := by
  have turned : cubic.bending (cubic.advance x t) * cubic.offset x t =
      (cubic.bend x t - 3 * cubic.twist x t) * cubic.xSlope t ^ 2 := by
    unfold advance
    rw [bending_sub]
    unfold bend twist shift
    field_simp
  rw [bend, offset_advance sloped, xSlope_advance sloped, ← mul_assoc, turned]
  field_simp

theorem twist_advance :
    cubic.twist x (cubic.advance x t) =
      cubic.twist x t * (cubic.bend x t - cubic.twist x t) ^ 2 / cubic.rise x t ^ 3 := by
  have same : cubic.leading * cubic.offset x t ^ 2 = cubic.twist x t * cubic.xSlope t ^ 3 := by
    unfold twist
    field_simp
  rw [twist, offset_advance sloped, xSlope_advance sloped, mul_pow, ← mul_assoc, same]
  field_simp

end Exact

/-! ### One step, in bounds -/

/-- A parameter where the tangent is close to the cubic over the correction. -/
structure Near (cubic : UnitCubic ℝ) (x t bendMost twistMost : ℝ) : Prop where
  rising : 0 < cubic.xSlope t
  bend : |cubic.bend x t| ≤ bendMost
  twist : |cubic.twist x t| ≤ twistMost

/-- A parameter from which one step leads near the root. The second derivative may take the cubic
far from its tangent, but only so that the step falls short. -/
structure Promising (cubic : UnitCubic ℝ) (x t : ℝ) : Prop where
  rising : 0 < cubic.xSlope t
  bendLow : -(19 / 20) ≤ cubic.bend x t
  bendHigh : cubic.bend x t ≤ 1 / 100
  twist : |cubic.twist x t| ≤ 1 / 25

/-- What a step keeps of the derivative, and leaves of the correction and of the error. -/
structure Contracts (cubic : UnitCubic ℝ) (x t kept shiftLeft offsetLeft : ℝ) : Prop where
  xSlope : kept * cubic.xSlope t ≤ cubic.xSlope (cubic.advance x t)
  shift : |cubic.shift x (cubic.advance x t)| ≤ shiftLeft * |cubic.shift x t|
  offset : |cubic.offset x (cubic.advance x t)| ≤ offsetLeft * |cubic.offset x t|

section Bounds

variable {kept ratio total bendMost twistMost : ℝ}

/-- **One step**, from bounds on the numbers that decide it. -/
theorem advance_bounds (rising : 0 < cubic.xSlope t) (positive : 0 < kept)
    (rises : kept ≤ cubic.rise x t)
    (short : |cubic.bend x t - cubic.twist x t| ≤ ratio * cubic.rise x t)
    (most : |cubic.bend x t - cubic.twist x t| ≤ total)
    (bends : |cubic.bend x t - 3 * cubic.twist x t| * ratio ≤ bendMost * cubic.rise x t)
    (twists : |cubic.twist x t| * ratio ^ 2 ≤ twistMost * cubic.rise x t) :
    cubic.Near x (cubic.advance x t) bendMost twistMost ∧
      cubic.Contracts x t kept ratio total := by
  have sloped := rising.ne'
  have rise := positive.trans_le rises
  have grows : kept * cubic.xSlope t ≤ cubic.xSlope (cubic.advance x t) := by
    rw [xSlope_advance sloped, mul_comm kept]
    exact mul_le_mul_of_nonneg_left rises rising.le
  refine ⟨⟨(mul_pos positive rising).trans_le grows, ?_, ?_⟩, grows, ?_, ?_⟩
  · rw [bend_advance sloped rise.ne', abs_div, abs_mul, abs_of_pos (pow_pos rise 2),
      div_le_iff₀ (pow_pos rise 2)]
    calc |cubic.bend x t - 3 * cubic.twist x t| * |cubic.bend x t - cubic.twist x t|
        ≤ |cubic.bend x t - 3 * cubic.twist x t| * (ratio * cubic.rise x t) :=
          mul_le_mul_of_nonneg_left short (abs_nonneg _)
      _ = |cubic.bend x t - 3 * cubic.twist x t| * ratio * cubic.rise x t := by ring
      _ ≤ bendMost * cubic.rise x t * cubic.rise x t := mul_le_mul_of_nonneg_right bends rise.le
      _ = bendMost * cubic.rise x t ^ 2 := by ring
  · rw [twist_advance sloped rise.ne', abs_div, abs_mul, abs_pow, abs_of_pos (pow_pos rise 3),
      div_le_iff₀ (pow_pos rise 3)]
    calc |cubic.twist x t| * |cubic.bend x t - cubic.twist x t| ^ 2
        ≤ |cubic.twist x t| * (ratio * cubic.rise x t) ^ 2 :=
          mul_le_mul_of_nonneg_left (pow_le_pow_left₀ (abs_nonneg _) short 2) (abs_nonneg _)
      _ = |cubic.twist x t| * ratio ^ 2 * cubic.rise x t ^ 2 := by ring
      _ ≤ twistMost * cubic.rise x t * cubic.rise x t ^ 2 :=
          mul_le_mul_of_nonneg_right twists (pow_pos rise 2).le
      _ = twistMost * cubic.rise x t ^ 3 := by ring
  · rw [shift_advance sloped rise.ne', abs_div, abs_mul, abs_of_pos rise, div_le_iff₀ rise]
    calc |cubic.shift x t| * |cubic.bend x t - cubic.twist x t|
        ≤ |cubic.shift x t| * (ratio * cubic.rise x t) :=
          mul_le_mul_of_nonneg_left short (abs_nonneg _)
      _ = ratio * |cubic.shift x t| * cubic.rise x t := by ring
  · rw [offset_advance sloped, abs_mul, mul_comm total]
    exact mul_le_mul_of_nonneg_left most (abs_nonneg _)

/-- **One step from near the root.** -/
theorem Near.next {bendNext twistNext : ℝ} (near : cubic.Near x t bendMost twistMost)
    (positive : 0 < kept) (rises : kept ≤ 1 - 2 * bendMost - 3 * twistMost)
    (short : bendMost + twistMost ≤ ratio * kept)
    (bends : (bendMost + 3 * twistMost) * ratio ≤ bendNext * kept)
    (twists : twistMost * ratio ^ 2 ≤ twistNext * kept) :
    cubic.Near x (cubic.advance x t) bendNext twistNext ∧
      cubic.Contracts x t kept ratio (bendMost + twistMost) := by
  obtain ⟨bendLow, bendHigh⟩ := abs_le.mp near.bend
  obtain ⟨twistLow, twistHigh⟩ := abs_le.mp near.twist
  have bendMost_nonneg := (abs_nonneg _).trans near.bend
  have twistMost_nonneg := (abs_nonneg _).trans near.twist
  have ratio_nonneg : 0 ≤ ratio :=
    nonneg_of_mul_nonneg_left ((add_nonneg bendMost_nonneg twistMost_nonneg).trans short) positive
  have bendNext_nonneg : 0 ≤ bendNext :=
    nonneg_of_mul_nonneg_left ((by positivity : 0 ≤ (bendMost + 3 * twistMost) * ratio).trans bends)
      positive
  have twistNext_nonneg : 0 ≤ twistNext :=
    nonneg_of_mul_nonneg_left ((by positivity : 0 ≤ twistMost * ratio ^ 2).trans twists) positive
  have rise : kept ≤ cubic.rise x t := by
    unfold rise
    linarith
  have most : |cubic.bend x t - cubic.twist x t| ≤ bendMost + twistMost :=
    (abs_sub _ _).trans (add_le_add near.bend near.twist)
  have mostSkew : |cubic.bend x t - 3 * cubic.twist x t| ≤ bendMost + 3 * twistMost := by
    rw [abs_le]
    exact ⟨by linarith, by linarith⟩
  refine advance_bounds near.rising positive rise
    (most.trans (short.trans (mul_le_mul_of_nonneg_left rise ratio_nonneg))) most ?_ ?_
  · exact (mul_le_mul_of_nonneg_right mostSkew ratio_nonneg).trans
      (bends.trans (mul_le_mul_of_nonneg_left rise bendNext_nonneg))
  · exact (mul_le_mul_of_nonneg_right near.twist (sq_nonneg _)).trans
      (twists.trans (mul_le_mul_of_nonneg_left rise twistNext_nonneg))

/-- **One step from a promising start.** -/
theorem Promising.next (promising : cubic.Promising x t) :
    cubic.Near x (cubic.advance x t) (3 / 25) (3 / 500) ∧
      cubic.Contracts x t (43 / 50) (1 / 3) 1 := by
  have low := promising.bendLow
  have high := promising.bendHigh
  obtain ⟨twistLow, twistHigh⟩ := abs_le.mp promising.twist
  have rise : cubic.rise x t = 1 - 2 * cubic.bend x t + 3 * cubic.twist x t := rfl
  have skew : |cubic.bend x t - 3 * cubic.twist x t| ≤ 9 / 25 * cubic.rise x t := by
    rw [rise, abs_le]
    exact ⟨by linarith, by linarith⟩
  refine advance_bounds promising.rising (by norm_num) ?_ ?_ ?_ ?_ ?_
  · linarith
  · rw [rise, abs_le]
    exact ⟨by linarith, by linarith⟩
  · rw [abs_le]
    exact ⟨by linarith, by linarith⟩
  · linarith
  · have twist := promising.twist
    linarith

end Bounds

/-! ### The steps of a search -/

/-- **What the steps of a search reach from a promising start**: a parameter at most two fifths of
the first correction away from the one after the first step, with a small share of the error and of
the correction, and half the derivative at least. -/
theorem Promising.newton (promising : cubic.Promising x t) :
    |cubic.advance x t - cubic.newton x newtonSteps t| ≤ 2 / 5 * |cubic.shift x t| ∧
      |cubic.offset x (cubic.newton x newtonSteps t)| ≤ 1 / 150000 * |cubic.offset x t| ∧
      |cubic.shift x (cubic.newton x newtonSteps t)| ≤ 1 / 400000 * |cubic.shift x t| ∧
      1 / 2 * cubic.xSlope t ≤ cubic.xSlope (cubic.newton x newtonSteps t) := by
  -- `bend` falls from below 1 to 0.12, 0.032 and 0.00125: every step squares it, roughly.
  obtain ⟨nearOne, one⟩ := promising.next
  set t1 := cubic.advance x t with isFirst
  obtain ⟨nearTwo, two⟩ : cubic.Near x (cubic.advance x t1) (4 / 125) (1 / 4000) ∧
      cubic.Contracts x t1 (742 / 1000) (17 / 100) (3 / 25 + 3 / 500) :=
    nearOne.next (by norm_num) (by norm_num) (by norm_num) (by norm_num) (by norm_num)
  set t2 := cubic.advance x t1 with isSecond
  obtain ⟨nearThree, three⟩ :
      cubic.Near x (cubic.advance x t2) (1 / 800) (1 / 1000000) ∧
        cubic.Contracts x t2 (935 / 1000) (69 / 2000) (4 / 125 + 1 / 4000) :=
    nearTwo.next (by norm_num) (by norm_num) (by norm_num) (by norm_num) (by norm_num)
  set t3 := cubic.advance x t2 with isThird
  obtain ⟨-, four⟩ : cubic.Near x (cubic.advance x t3) 1 1 ∧
      cubic.Contracts x t3 (997 / 1000) (1255 / 1000000) (1 / 800 + 1 / 1000000) :=
    nearThree.next (by norm_num) (by norm_num) (by norm_num) (by norm_num) (by norm_num)
  have result : cubic.newton x newtonSteps t = cubic.advance x t3 := by
    show cubic.newton x (0 + 1 + 1 + 1 + 1) t = cubic.advance x t3
    rw [newton_succ promising.rising.ne', newton_succ nearOne.rising.ne',
      newton_succ nearTwo.rising.ne', newton_succ nearThree.rising.ne']
    rfl
  have total : t1 - cubic.advance x t3 =
      cubic.shift x t1 + cubic.shift x t2 + cubic.shift x t3 := by
    rw [advance, isThird, advance, isSecond, advance]
    ring
  rw [result, total]
  refine ⟨?_, ?_, ?_, ?_⟩
  · have triangle := abs_add_three (cubic.shift x t1) (cubic.shift x t2) (cubic.shift x t3)
    linarith [one.shift, two.shift, three.shift, abs_nonneg (cubic.shift x t)]
  · linarith [one.offset, two.offset, three.offset, four.offset, abs_nonneg (cubic.offset x t)]
  · linarith [one.shift, two.shift, three.shift, four.shift, abs_nonneg (cubic.shift x t)]
  · linarith [one.xSlope, two.xSlope, three.xSlope, four.xSlope, promising.rising]

end UnitCubic

end Easing
