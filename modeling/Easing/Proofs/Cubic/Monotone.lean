/-
**A coordinate with inner control values in the unit interval never decreases.**

Read over the reals. In its inner control values a coordinate is a mean of the coordinates at the
four corners of the unit square, `t³`, `3t² - 2t³`, `1/2 + 4(t - 1/2)³` and `1 - (1 - t)³`, and so is
its derivative. Between two parameters each corner rises by the cube of their distance at least.

* `Cubic.hasDerivAt_value`: `slope` is the derivative of `value`.
* `Cubic.slope_corners`, `Cubic.slope_nonneg`: the derivative as a mean, and its sign.
* `Cubic.cube_le_value_sub`, `Cubic.value_sub_le`: the rise between two parameters.
* `Cubic.value_strictMonoOn`: no value is taken twice.
-/
import Mathlib
import Easing.Proofs.Scalar.Exact

set_option linter.unusedSectionVars false

namespace Easing

theorem inUnit_real {a : ℝ} : InUnit a ↔ 0 ≤ a ∧ a ≤ 1 := by
  unfold InUnit
  rw [Scalar.zero_real, Scalar.one_real]

namespace Cubic

/-! ### The derivative -/

theorem slope_real (t a1 a2 : ℝ) :
    slope t a1 a2 =
      3 * (1 - 3 * a2 + 3 * a1) * t ^ 2 + 2 * (3 * a2 - 6 * a1) * t + 3 * a1 := by
  unfold slope coeffA coeffB coeffC
  rw [Scalar.one_real]
  ring

theorem hasDerivAt_value (t a1 a2 : ℝ) :
    HasDerivAt (fun s => value s a1 a2) (slope t a1 a2) t := by
  simp only [value_real, slope_real]
  have square : HasDerivAt (fun s : ℝ => s ^ 2) (2 * t) t := by
    simpa using hasDerivAt_pow 2 t
  have line := ((hasDerivAt_id t).const_mul (1 - 3 * a2 + 3 * a1)).add_const (3 * a2 - 6 * a1)
  refine ((line.mul square).add ((hasDerivAt_id t).const_mul (3 * a1))).congr_deriv ?_
  rw [id_eq]
  ring

/-- The derivative is the mean of the derivatives at the corners. -/
theorem slope_corners (t a1 a2 : ℝ) :
    slope t a1 a2 =
      3 * ((1 - a1) * (1 - a2) * t ^ 2 + (1 - a1) * a2 * (2 * t * (1 - t)) +
        a1 * (1 - a2) * (1 - 2 * t) ^ 2 + a1 * a2 * (1 - t) ^ 2) := by
  rw [slope_real]
  ring

/-- The rise beyond the cube of the distance is the mean of those at the corners. -/
theorem value_sub_sub_cube (s t a1 a2 : ℝ) :
    value t a1 a2 - value s a1 a2 - (t - s) ^ 3 =
      3 * (t - s) * ((1 - a1) * (1 - a2) * (s * t) +
        (1 - a1) * a2 * (s * (1 - s) + t * (1 - t)) + a1 * (1 - a2) * (s + t - 1) ^ 2 +
        a1 * a2 * ((1 - s) * (1 - t))) := by
  rw [value_real, value_real]
  ring

section Unit

variable {a1 a2 : ℝ} (first : 0 ≤ a1 ∧ a1 ≤ 1) (second : 0 ≤ a2 ∧ a2 ≤ 1)

include first second

theorem slope_nonneg {t : ℝ} (low : 0 ≤ t) (high : t ≤ 1) : 0 ≤ slope t a1 a2 := by
  have left1 := sub_nonneg.mpr first.2
  have left2 := sub_nonneg.mpr second.2
  have left := sub_nonneg.mpr high
  obtain ⟨right1, -⟩ := first
  obtain ⟨right2, -⟩ := second
  rw [slope_corners]
  positivity

theorem slope_le {t : ℝ} (low : 0 ≤ t) (high : t ≤ 1) : slope t a1 a2 ≤ 3 := by
  have left1 := sub_nonneg.mpr first.2
  have left2 := sub_nonneg.mpr second.2
  have left := sub_nonneg.mpr high
  obtain ⟨right1, -⟩ := first
  obtain ⟨right2, -⟩ := second
  -- What the mean of the four squares leaves of one.
  have rest : 3 - slope t a1 a2 = 3 * ((1 - a1) * (1 - a2) * ((1 - t) * (1 + t)) +
      (1 - a1) * a2 * (t ^ 2 + (1 - t) ^ 2) + a1 * (1 - a2) * (4 * (t * (1 - t))) +
      a1 * a2 * (t * (2 - t))) := by
    rw [slope_corners]
    ring
  have beyond : 0 ≤ 2 - t := by linarith
  rw [← sub_nonneg, rest]
  positivity

/-- Between two parameters the coordinate rises by three times their distance at most. -/
theorem value_sub_le {s t : ℝ} (low : 0 ≤ s) (forward : s ≤ t) (high : t ≤ 1) :
    value t a1 a2 - value s a1 a2 ≤ 3 * (t - s) := by
  refine (convex_Icc (0 : ℝ) 1).image_sub_le_mul_sub_of_deriv_le
    (continuous_value a1 a2).continuousOn
    (fun r _ => (hasDerivAt_value r a1 a2).differentiableAt.differentiableWithinAt) ?_
    s ⟨low, forward.trans high⟩ t ⟨low.trans forward, high⟩ forward
  intro r inside
  rw [interior_Icc] at inside
  rw [(hasDerivAt_value r a1 a2).deriv]
  exact slope_le first second inside.1.le inside.2.le

/-- **Between two parameters the coordinate rises by the cube of their distance at least.** -/
theorem cube_le_value_sub {s t : ℝ} (low : 0 ≤ s) (forward : s ≤ t) (high : t ≤ 1) :
    (t - s) ^ 3 ≤ value t a1 a2 - value s a1 a2 := by
  have left1 := sub_nonneg.mpr first.2
  have left2 := sub_nonneg.mpr second.2
  have leftS := sub_nonneg.mpr (forward.trans high)
  have leftT := sub_nonneg.mpr high
  have between := sub_nonneg.mpr forward
  have right := low.trans forward
  obtain ⟨right1, -⟩ := first
  obtain ⟨right2, -⟩ := second
  rw [← sub_nonneg, value_sub_sub_cube]
  positivity

theorem value_strictMonoOn : StrictMonoOn (fun t => value t a1 a2) (Set.Icc 0 1) := by
  rintro s ⟨low, -⟩ t ⟨-, high⟩ forward
  have rise := cube_le_value_sub first second low forward.le high
  have positive : 0 < (t - s) ^ 3 := pow_pos (sub_pos.mpr forward) 3
  exact sub_pos.mp (positive.trans_le rise)

theorem value_le_value {s t : ℝ} (low : 0 ≤ s) (forward : s ≤ t) (high : t ≤ 1) :
    value s a1 a2 ≤ value t a1 a2 :=
  (value_strictMonoOn first second).monotoneOn ⟨low, forward.trans high⟩
    ⟨low.trans forward, high⟩ forward

end Unit

end Cubic

end Easing
