/-
**How near the solver comes, and where it may be trusted.**

Read over the reals. The guard of Newton's method tests the derivative at the guess against `0.001`,
which does not keep the first step from leaving the interval of the table. Where the derivative at
the guess is zero, or at least `1/8`, the search is accurate: the guess is then exact, or a promising
start. Between the two the parameter found can be off by far, and a curve that never falls is
evaluated to one that does.

* `UnitCubic.FirmGuess`: the guesses that the search may be trusted with.
* `UnitCubic.FirmGuess.solved`: what the search finds from one.
* `UnitCubic.xAt_solve_near`: the error in x from a firm guess; `UnitCubic.not_xAt_solve_near`.
* `UnitCubic.Solved.le_add`: parameters of ascending values are ascending, but for little.
* `UnitCubic.eval_monotone`: values from firm guesses are ascending; `UnitCubic.not_eval_monotone`.
-/
import Mathlib
import Easing.Proofs.Cubic.Guess
import Easing.Proofs.Curve.Joint

set_option linter.unusedSectionVars false

namespace Easing

namespace UnitCubic

theorem newtonSlope_real : (newtonSlope : ℝ) = 1 / 1000 := by
  show (0.001 : ℝ) = 1 / 1000
  norm_num

variable (cubic : UnitCubic ℝ) {x t : ℝ}

/-! ### The three ways of a search -/

theorem solve_of_steep (steep : 1 / 1000 ≤ cubic.xSlope (cubic.guess x (cubic.bracket x))) :
    cubic.solve x = cubic.newton x newtonSteps (cubic.guess x (cubic.bracket x)) := by
  rw [← newtonSlope_real] at steep
  exact if_pos steep

theorem solve_of_flat (flat : cubic.xSlope (cubic.guess x (cubic.bracket x)) = 0) :
    cubic.solve x = cubic.guess x (cubic.bracket x) := by
  have notSteep : ¬newtonSlope ≤ cubic.xSlope (cubic.guess x (cubic.bracket x)) := by
    rw [newtonSlope_real, flat]
    norm_num
  have isFlat : (cubic.xSlope (cubic.guess x (cubic.bracket x)) ==
      @OfNat.ofNat ℝ 0 Scalar.instOfNat) = true := by
    rw [Scalar.zero_real, beq_iff_eq]
    exact flat
  exact (if_neg notSteep).trans (if_pos isFlat)

/-- The derivative vanishes inside the unit interval only where the curve stands upright. -/
theorem eq_half_of_flat (low : 0 < t) (high : t < 1) (flat : cubic.xSlope t = 0) : t = 1 / 2 := by
  obtain ⟨low1, high1⟩ := cubic.x1_real
  obtain ⟨low2, high2⟩ := cubic.x2_real
  have left1 := sub_nonneg.mpr high1
  have left2 := sub_nonneg.mpr high2
  have left := sub_pos.mpr high
  have first : 0 ≤ (1 - cubic.x1) * (1 - cubic.x2) * t ^ 2 := by positivity
  have second : 0 ≤ (1 - cubic.x1) * cubic.x2 * (2 * t * (1 - t)) := by positivity
  have third : 0 ≤ cubic.x1 * (1 - cubic.x2) * (1 - 2 * t) ^ 2 := by positivity
  have fourth : 0 ≤ cubic.x1 * cubic.x2 * (1 - t) ^ 2 := by positivity
  have sum := (Cubic.slope_corners t cubic.x1 cubic.x2).symm.trans flat
  have noFirst : (1 - cubic.x1) * (1 - cubic.x2) = 0 :=
    (mul_eq_zero.mp (by linarith : (1 - cubic.x1) * (1 - cubic.x2) * t ^ 2 = 0)).resolve_right
      (pow_pos low 2).ne'
  have noSecond : (1 - cubic.x1) * cubic.x2 = 0 :=
    (mul_eq_zero.mp (by linarith : (1 - cubic.x1) * cubic.x2 * (2 * t * (1 - t)) = 0)).resolve_right
      (by positivity)
  have noFourth : cubic.x1 * cubic.x2 = 0 :=
    (mul_eq_zero.mp (by linarith : cubic.x1 * cubic.x2 * (1 - t) ^ 2 = 0)).resolve_right
      (pow_pos left 2).ne'
  have isThird : cubic.x1 * (1 - cubic.x2) = 1 := by linarith
  have square : (1 - 2 * t) ^ 2 = 0 := by
    rw [isThird] at third sum
    linarith
  linarith [pow_eq_zero_iff two_ne_zero |>.mp square]

section Guess

variable (positive : 0 < x) (below : x < 1)

include positive below

/-- **The guess lies on the chord over the interval that the scan finds.** -/
theorem guess_chord : cubic.Chord x (knot (cubic.bracket x)) (cubic.guess x (cubic.bracket x)) := by
  obtain ⟨inside, -, -⟩ := cubic.bracket_spec positive below
  obtain ⟨after, before⟩ := cubic.guess_mem positive below
  obtain ⟨nonneg, le_one⟩ := knot_mem inside
  have span := (cubic.span_pos positive below).ne'
  have guess := cubic.guess_real positive below
  unfold knotX at span guess
  rw [← knot_add_step, step_real] at span guess
  rw [step_real] at before le_one
  refine ⟨nonneg, le_one, after, before.le, ?_⟩
  rw [guess]
  linear_combination -div_mul_cancel₀ (x - cubic.xAt (knot (cubic.bracket x))) span

/-- A guess at which the derivative vanishes is exact. -/
theorem xAt_guess_of_flat (flat : cubic.xSlope (cubic.guess x (cubic.bracket x)) = 0) :
    cubic.xAt (cubic.guess x (cubic.bracket x)) = x := by
  have chord := cubic.guess_chord positive below
  obtain ⟨-, before⟩ := cubic.guess_mem positive below
  have meets := chord.meets
  have inside : 0 < cubic.guess x (cubic.bracket x) := by
    refine chord.mem.1.lt_of_ne fun atStart => positive.ne' ?_
    have atZero : (knot (cubic.bracket x) : ℝ) = 0 :=
      le_antisymm (chord.after.trans_eq atStart.symm) chord.nonneg
    rw [meets, atZero, ← atStart, xAt_zero]
    ring
  have middle : cubic.guess x (cubic.bracket x) = 1 / 2 := by
    refine cubic.eq_half_of_flat inside (before.trans_le ?_) flat
    rw [step_real]
    exact chord.le_one
  have isFifth : cubic.bracket x = 5 := by
    have after := chord.after
    rw [middle, knot_real] at after
    rw [middle, knot_add_step, knot_real, Nat.cast_add_one] at before
    have low : (cubic.bracket x : ℝ) < (6 : Nat) := by
      push_cast
      linarith
    have high : ((4 : Nat) : ℝ) < cubic.bracket x := by
      push_cast
      linarith
    rw [Nat.cast_lt] at low high
    omega
  have atKnot : (knot (cubic.bracket x) : ℝ) = 1 / 2 := by
    rw [isFifth, knot_real]
    norm_num
  rw [middle]
  rw [middle, atKnot, sub_self, mul_zero, zero_mul, add_zero] at meets
  exact meets.symm

end Guess

/-! ### Where the curve stands upright -/

theorem upright_xAt (d : ℝ) : upright.xAt (1 / 2 + d) = 1 / 2 + 4 * d ^ 3 := by
  rw [xAt_real]
  simp only [upright]
  ring

theorem upright_xSlope (d : ℝ) : upright.xSlope (1 / 2 + d) = 12 * d ^ 2 := by
  rw [xSlope_real]
  simp only [upright]
  ring

theorem upright_y1 : 0 ≤ upright.y1 ∧ upright.y1 ≤ 1 := ⟨le_rfl, zero_le_one⟩

theorem upright_y2 : 0 ≤ upright.y2 ∧ upright.y2 ≤ 1 := ⟨zero_le_one, le_rfl⟩

theorem upright_curved : ¬upright.isIdentity = true := by
  intro identity
  have same := beq_iff_eq.mp (Bool.and_eq_true_iff.mp identity).1
  exact one_ne_zero (same : (1 : ℝ) = 0)

/-- Newton's method near the middle. -/
theorem upright_newton_succ {steps : Nat} {d : ℝ} (apart : d ≠ 0) :
    upright.newton x (steps + 1) (1 / 2 + d) =
      upright.newton x steps (1 / 2 + (2 / 3 * d + (x - 1 / 2) / (12 * d ^ 2))) := by
  have sloped : upright.xSlope (1 / 2 + d) ≠ 0 := by
    rw [upright_xSlope]
    positivity
  rw [newton_succ sloped, advance, shift, offset, upright_xAt, upright_xSlope]
  congr 1
  field_simp
  ring

/-- From beyond the root each step takes a third of the way to the middle at most. -/
theorem upright_newton_mem (steps : Nat) {d : ℝ} (apart : 0 < d) (right : 1 / 2 ≤ x)
    (beyond : x ≤ 1 / 2 + 4 * d ^ 3) :
    upright.newton x steps (1 / 2 + d) ∈
      Set.Icc (1 / 2 + (2 / 3) ^ steps * d) (1 / 2 + d) := by
  induction steps generalizing d with
  | zero =>
    rw [pow_zero, one_mul]
    exact Set.left_mem_Icc.mpr le_rfl
  | succ steps ih =>
    obtain ⟨e, isPart⟩ : ∃ e, e = (x - 1 / 2) / (12 * d ^ 2) := ⟨_, rfl⟩
    have part : x - 1 / 2 = 12 * d ^ 2 * e := by
      rw [isPart]
      field_simp
    have positive : 0 ≤ e := by
      rw [isPart]
      exact div_nonneg (by linarith) (by positivity)
    have within : e ≤ d / 3 := by
      rw [isPart, div_le_iff₀ (by positivity)]
      linarith
    have stillApart : 0 < 2 / 3 * d + e := by positivity
    have stillBeyond : x ≤ 1 / 2 + 4 * (2 / 3 * d + e) ^ 3 := by
      have root : 0 ≤ (d / 3 - e) ^ 2 * (8 * (d / 3) + e) := by positivity
      linarith
    obtain ⟨low, high⟩ := ih stillApart stillBeyond
    rw [upright_newton_succ apart.ne', ← isPart]
    refine ⟨le_trans ?_ low, by linarith⟩
    have shrunk : (2 / 3 : ℝ) ^ steps * (2 / 3 * d) ≤ (2 / 3) ^ steps * (2 / 3 * d + e) :=
      mul_le_mul_of_nonneg_left (le_add_of_nonneg_right positive) (by positivity)
    rw [pow_succ, mul_assoc]
    linarith

theorem upright_knotX (index : Nat) :
    upright.knotX index = 1 / 2 + 4 * ((index : ℝ) / 10 - 1 / 2) ^ 3 := by
  unfold knotX
  rw [knot_real, ← upright_xAt, add_sub_cancel]

/-- The guess right of the middle, where the curve rises by `0.004` over an interval. -/
theorem upright_guess (right : 1 / 2 ≤ x) (near : x < 63 / 125) :
    upright.guess x (upright.bracket x) = 1 / 2 + 25 * (x - 1 / 2) := by
  have positive : 0 < x := by linarith
  have below : x < 1 := by linarith
  have fifth : upright.bracket x = 5 := by
    refine upright.bracket_eq positive below (by decide) ?_ ?_
    · rw [upright_knotX]
      norm_num
      linarith
    · rw [upright_knotX]
      norm_num
      linarith
  rw [upright.guess_real positive below, fifth, upright_knotX, upright_knotX, knot_real, step_real]
  push_cast
  ring

theorem upright_solve (right : 1 / 2 ≤ x) (near : x < 63 / 125)
    (steep : 1 / 1000 ≤ 12 * (25 * (x - 1 / 2)) ^ 2) :
    upright.solve x = upright.newton x newtonSteps (1 / 2 + 25 * (x - 1 / 2)) := by
  have guess := upright_guess right near
  have slope : 1 / 1000 ≤ upright.xSlope (upright.guess x (upright.bracket x)) := by
    rw [guess, upright_xSlope]
    exact steep
  rw [upright.solve_of_steep slope, guess]

/-- The first step from a guess near the middle goes far beyond the root, and the others do not
come back. -/
theorem upright_solve_far :
    upright.solve 0.5004 ∈ Set.Icc (1 / 2 + 1 / 10 : ℝ) (1 / 2 + 17 / 50) := by
  have searched := upright_solve (x := 0.5004) (by norm_num) (by norm_num) (by norm_num)
  have first : upright.newton 0.5004 newtonSteps (1 / 2 + 25 * (0.5004 - 1 / 2)) =
      upright.newton 0.5004 3 (1 / 2 + 17 / 50) := by
    refine (upright_newton_succ (by norm_num)).trans ?_
    norm_num
  rw [searched, first]
  obtain ⟨low, high⟩ :=
    upright_newton_mem 3 (d := 17 / 50) (x := 0.5004) (by norm_num) (by norm_num) (by norm_num)
  exact ⟨le_trans (by norm_num) low, high⟩

theorem upright_solve_close :
    upright.solve 0.502 ∈ Set.Icc (1 / 2 : ℝ) (1 / 2 + 1 / 12) := by
  have searched := upright_solve (x := 0.502) (by norm_num) (by norm_num) (by norm_num)
  have first : upright.newton 0.502 newtonSteps (1 / 2 + 25 * (0.502 - 1 / 2)) =
      upright.newton 0.502 2 (1 / 2 + 1 / 12) := by
    refine (upright_newton_succ (by norm_num)).trans ((upright_newton_succ (by norm_num)).trans ?_)
    norm_num
  rw [searched, first]
  obtain ⟨low, high⟩ :=
    upright_newton_mem 2 (d := 1 / 12) (x := 0.502) (by norm_num) (by norm_num) (by norm_num)
  exact ⟨le_trans (by norm_num) low, high⟩

/-! ### From a firm guess -/

/-- At the guess the curve is upright, or not nearly so. -/
def FirmGuess (cubic : UnitCubic ℝ) (x : ℝ) : Prop :=
  cubic.xSlope (cubic.guess x (cubic.bracket x)) = 0 ∨
    1 / 8 ≤ cubic.xSlope (cubic.guess x (cubic.bracket x))

/-- A parameter for `x`, with an error that is small beside the derivative there too. -/
structure Solved (cubic : UnitCubic ℝ) (x t : ℝ) : Prop where
  nonneg : 0 ≤ t
  le_one : t ≤ 1
  near : |cubic.xAt t - x| ≤ 1 / 10 ^ 7
  near_slope : |cubic.xAt t - x| ≤ 1 / 8000000 * cubic.xSlope t
  sloped : cubic.xAt t = x ∨ 1 / 16 ≤ cubic.xSlope t

variable {cubic}

theorem Solved.of_exact (nonneg : 0 ≤ t) (le_one : t ≤ 1) (isExact : cubic.xAt t = x) :
    cubic.Solved x t := by
  have none : |cubic.xAt t - x| = 0 := by
    rw [isExact, sub_self, abs_zero]
  have rises : 0 ≤ cubic.xSlope t := Cubic.slope_nonneg cubic.x1_real cubic.x2_real nonneg le_one
  refine ⟨nonneg, le_one, ?_, ?_, .inl isExact⟩
  · rw [none]
    positivity
  · rw [none]
    positivity

/-- **Newton's method from a guess on the chord**, where the derivative is at least `1/8`. -/
theorem Chord.solved {low : ℝ} (chord : cubic.Chord x low t) (steep : 1 / 8 ≤ cubic.xSlope t) :
    cubic.Solved x (cubic.newton x newtonSteps t) := by
  obtain ⟨away, offset, shift, kept⟩ := (chord.promising steep).newton
  obtain ⟨right, left⟩ := chord.shift_mem steep
  have first := chord.abs_shift_le steep
  have error := chord.abs_offset_le steep
  have rising : 1 / 16 ≤ cubic.xSlope (cubic.newton x newtonSteps t) := by linarith
  obtain ⟨least, most⟩ := abs_le.mp away
  rw [advance] at least most
  have inside : low ≤ cubic.newton x newtonSteps t ∧
      cubic.newton x newtonSteps t ≤ low + 1 / 10 := by
    have after := chord.after
    have before := chord.before
    -- The steps after the first one do not turn back as far as to the guess.
    rcases le_total 0 (cubic.shift x t) with sign | sign
    · rw [abs_of_nonneg sign] at least most
      exact ⟨by linarith, by linarith⟩
    · rw [abs_of_nonpos sign] at least most
      exact ⟨by linarith, by linarith⟩
  refine ⟨chord.nonneg.trans inside.1, inside.2.trans chord.le_one, ?_, ?_, .inr rising⟩
  · show |cubic.offset x (cubic.newton x newtonSteps t)| ≤ 1 / 10 ^ 7
    linarith
  · show |cubic.offset x (cubic.newton x newtonSteps t)| ≤ _
    have positive : 0 < cubic.xSlope (cubic.newton x newtonSteps t) := by linarith
    rw [offset_eq_shift_mul positive.ne', abs_mul, abs_of_pos positive]
    exact mul_le_mul_of_nonneg_right (by linarith) positive.le

/-- **What the search finds from a firm guess.** -/
theorem FirmGuess.solved (positive : 0 < x) (below : x < 1) (firm : cubic.FirmGuess x) :
    cubic.Solved x (cubic.solve x) := by
  have chord := cubic.guess_chord positive below
  rcases firm with flat | steep
  · rw [cubic.solve_of_flat flat]
    exact Solved.of_exact chord.mem.1 chord.mem.2 (cubic.xAt_guess_of_flat positive below flat)
  · rw [cubic.solve_of_steep (by linarith)]
    exact chord.solved steep

/-- **From a firm guess the solver inverts x to `1e-7`.** -/
theorem xAt_solve_near (positive : 0 < x) (below : x < 1) (firm : cubic.FirmGuess x) :
    |cubic.xAt (cubic.solve x) - x| ≤ 1 / 10 ^ 7 :=
  (firm.solved positive below).near

theorem upright_firmGuess_threeQuarters : upright.FirmGuess (3 / 4) := by
  have positive : (0 : ℝ) < 3 / 4 := by norm_num
  have below : (3 / 4 : ℝ) < 1 := by norm_num
  have eighth : upright.bracket (3 / 4) = 8 := by
    refine upright.bracket_eq positive below (by decide) ?_ ?_
    · rw [upright_knotX]
      norm_num
    · rw [upright_knotX]
      norm_num
  have guess : upright.guess (3 / 4) (upright.bracket (3 / 4)) = 1 / 2 + 293 / 740 := by
    rw [upright.guess_real positive below, eighth, upright_knotX, upright_knotX, knot_real,
      step_real]
    norm_num
  refine .inr ?_
  rw [guess, upright_xSlope]
  norm_num

theorem upright_firmGuess_half : upright.FirmGuess (1 / 2) := by
  have guess := upright_guess (x := 1 / 2) le_rfl (by norm_num)
  refine .inl ?_
  rw [guess, upright_xSlope]
  norm_num

theorem upright_xAt_solve_near :
    (0 : ℝ) < 3 / 4 ∧ (3 / 4 : ℝ) < 1 ∧ upright.FirmGuess (3 / 4) ∧
      |upright.xAt (upright.solve (3 / 4)) - 3 / 4| ≤ 1 / 10 ^ 7 :=
  ⟨by norm_num, by norm_num, upright_firmGuess_threeQuarters,
    xAt_solve_near (by norm_num) (by norm_num) upright_firmGuess_threeQuarters⟩

/-- **The solver does not invert x on every curve.** -/
theorem not_xAt_solve_near :
    ¬∀ (cubic : UnitCubic ℝ) (x : ℝ), ¬cubic.isIdentity = true → 0 < x → x < 1 →
      |cubic.xAt (cubic.solve x) - x| ≤ 1 / 10 ^ 6 := by
  intro inverts
  have near := inverts upright 0.5004 upright_curved (by norm_num) (by norm_num)
  obtain ⟨low, -⟩ := upright_solve_far
  obtain ⟨d, isApart⟩ : ∃ d, d = upright.solve 0.5004 - 1 / 2 := ⟨_, rfl⟩
  have cube : (1 / 10 : ℝ) ^ 3 ≤ d ^ 3 := pow_le_pow_left₀ (by norm_num) (by linarith) 3
  rw [← add_sub_cancel (1 / 2 : ℝ) (upright.solve 0.5004), ← isApart, upright_xAt] at near
  have above := (abs_le.mp near).2
  norm_num at above cube
  linarith

/-! ### Neighbouring values -/

/-- The rise between two parameters, by the derivatives at both. -/
theorem xAt_sub_eq (s t : ℝ) :
    cubic.xAt t - cubic.xAt s =
      (t - s) * (cubic.xSlope s + cubic.xSlope t) / 2 - cubic.leading * (t - s) ^ 3 / 2 := by
  rw [xAt_real, xAt_real, xSlope_real, xSlope_real, leading_real]
  ring

theorem Solved.slope_mem (solved : cubic.Solved x t) : 0 ≤ cubic.xSlope t ∧ cubic.xSlope t ≤ 3 :=
  ⟨Cubic.slope_nonneg cubic.x1_real cubic.x2_real solved.nonneg solved.le_one,
    Cubic.slope_le cubic.x1_real cubic.x2_real solved.nonneg solved.le_one⟩

section Neighbours

variable {a b s t : ℝ} (solvedA : cubic.Solved a s) (solvedB : cubic.Solved b t) (forward : a ≤ b)

include solvedA solvedB forward

/-- Between parameters of ascending values the cubic rises by their errors at most. -/
theorem Solved.rise_le :
    cubic.xAt s - cubic.xAt t ≤ 1 / 8000000 * (cubic.xSlope s + cubic.xSlope t) := by
  have above := (abs_le.mp solvedA.near_slope).2
  have beneath := (abs_le.mp solvedB.near_slope).1
  linarith

variable (descending : t < s)

include descending

/-- So they are not far apart, whatever the derivatives. -/
theorem Solved.sub_le_of_lt : s - t ≤ 1 / 100 := by
  refine le_of_not_gt fun far => ?_
  have rise := solvedA.rise_le solvedB forward
  have cube : (s - t) ^ 3 ≤ cubic.xAt s - cubic.xAt t :=
    Cubic.cube_le_value_sub cubic.x1_real cubic.x2_real solvedB.nonneg descending.le
      solvedA.le_one
  have large : (1 / 100 : ℝ) ^ 3 < (s - t) ^ 3 := pow_lt_pow_left₀ far (by norm_num) three_ne_zero
  linarith [solvedA.slope_mem, solvedB.slope_mem]

/-- Two exact parameters ascend, so the derivative is not small at both. -/
theorem Solved.slopes_of_lt : 1 / 16 ≤ cubic.xSlope s + cubic.xSlope t := by
  have slopeS := solvedA.slope_mem.1
  have slopeT := solvedB.slope_mem.1
  rcases solvedA.sloped with exactA | sloped
  · rcases solvedB.sloped with exactB | sloped
    · have strict : cubic.xAt t < cubic.xAt s :=
        cubic.xAt_strictMonoOn ⟨solvedB.nonneg, solvedB.le_one⟩
          ⟨solvedA.nonneg, solvedA.le_one⟩ descending
      linarith
    · linarith
  · linarith

/-- The cubic part of the rise is small beside the part that the derivatives give. -/
theorem Solved.cube_le_of_lt :
    cubic.leading * (s - t) ^ 3 ≤ 1 / 100 * ((s - t) * (cubic.xSlope s + cubic.xSlope t)) := by
  have positive := sub_pos.mpr descending
  have scaled := mul_le_mul_of_nonneg_left (solvedA.slopes_of_lt solvedB forward descending)
    positive.le
  have square : (s - t) ^ 2 ≤ (1 / 100) ^ 2 :=
    pow_le_pow_left₀ positive.le (solvedA.sub_le_of_lt solvedB forward descending) 2
  calc cubic.leading * (s - t) ^ 3 ≤ 4 * (s - t) ^ 3 :=
        mul_le_mul_of_nonneg_right cubic.leading_mem.2 (pow_pos positive 3).le
    _ = 4 * (s - t) * (s - t) ^ 2 := by ring
    _ ≤ 4 * (s - t) * (1 / 100) ^ 2 :=
        mul_le_mul_of_nonneg_left square (mul_pos four_pos positive).le
    _ ≤ 1 / 100 * ((s - t) * (1 / 16)) := by linarith
    _ ≤ 1 / 100 * ((s - t) * (cubic.xSlope s + cubic.xSlope t)) := by linarith

omit descending in
/-- **Parameters of ascending values are ascending**, but for less than `4e-7`. -/
theorem Solved.le_add : s ≤ t + 1 / 3000000 := by
  rcases le_or_gt s t with ascending | descending
  · linarith
  have rise := solvedA.rise_le solvedB forward
  have slopes := solvedA.slopes_of_lt solvedB forward descending
  have cube := solvedA.cube_le_of_lt solvedB forward descending
  rw [xAt_sub_eq, add_comm (cubic.xSlope t)] at rise
  have bound : (s - t) * (cubic.xSlope s + cubic.xSlope t) ≤
      1 / 3000000 * (cubic.xSlope s + cubic.xSlope t) := by linarith
  linarith [le_of_mul_le_mul_right bound (by linarith)]

end Neighbours

/-! ### Values in order -/

/-- The value at `x` needs no search, or its search starts from a firm guess. -/
def Firm (cubic : UnitCubic ℝ) (x : ℝ) : Prop :=
  cubic.isIdentity = true ∨ x = 0 ∨ x = 1 ∨ cubic.FirmGuess x

theorem eval_of_isIdentity (identity : cubic.isIdentity = true) : cubic.eval x = x :=
  if_pos identity

theorem eval_inside (curved : ¬cubic.isIdentity = true) (positive : 0 < x) (below : x < 1) :
    cubic.eval x = cubic.yAt (cubic.solve x) := by
  have inside : ¬(x == @OfNat.ofNat ℝ 0 Scalar.instOfNat ||
      x == @OfNat.ofNat ℝ 1 Scalar.instOfNat) = true := by
    rw [Bool.or_eq_true, beq_iff_eq, beq_iff_eq, Scalar.zero_real, Scalar.one_real]
    rintro (rfl | rfl)
    · exact lt_irrefl _ positive
    · exact lt_irrefl _ below
  exact (if_neg curved).trans (if_neg inside)

/-- A firm value is that of a parameter which is as good as one that a search finds. -/
theorem Firm.exists_solved (firm : cubic.Firm x) (curved : ¬cubic.isIdentity = true) (low : 0 ≤ x)
    (high : x ≤ 1) : ∃ t, cubic.Solved x t ∧ cubic.eval x = cubic.yAt t := by
  rcases low.eq_or_lt with rfl | positive
  · exact ⟨0, Solved.of_exact le_rfl zero_le_one cubic.xAt_zero,
      cubic.eval_zero.trans (Cubic.value_zero _ _).symm⟩
  rcases high.eq_or_lt with rfl | below
  · exact ⟨1, Solved.of_exact zero_le_one le_rfl cubic.xAt_one,
      cubic.eval_one.trans (Cubic.value_one _ _).symm⟩
  have guess : cubic.FirmGuess x :=
    ((firm.resolve_left curved).resolve_left positive.ne').resolve_left below.ne
  exact ⟨cubic.solve x, guess.solved positive below, eval_inside curved positive below⟩

section Values

variable (first : 0 ≤ cubic.y1 ∧ cubic.y1 ≤ 1) (second : 0 ≤ cubic.y2 ∧ cubic.y2 ≤ 1)

include first second

theorem yAt_le_add {s t : ℝ} (lowS : 0 ≤ s) (highS : s ≤ 1) (lowT : 0 ≤ t) (highT : t ≤ 1)
    (near : s ≤ t + 1 / 3000000) : cubic.yAt s ≤ cubic.yAt t + 1 / 10 ^ 6 := by
  rcases le_total s t with forward | backward
  · have ascending := Cubic.value_le_value first second lowS forward highT
    exact ascending.trans (le_add_of_nonneg_right (by norm_num))
  · have rise := Cubic.value_sub_le first second lowT backward highS
    unfold yAt
    linarith

/-- **Values from firm guesses are ascending**, to within `1e-6`. -/
theorem eval_monotone {a b : ℝ} (low : 0 ≤ a) (forward : a ≤ b) (high : b ≤ 1)
    (firmA : cubic.Firm a) (firmB : cubic.Firm b) :
    cubic.eval a ≤ cubic.eval b + 1 / 10 ^ 6 := by
  by_cases identity : cubic.isIdentity = true
  · rw [eval_of_isIdentity identity, eval_of_isIdentity identity]
    exact forward.trans (le_add_of_nonneg_right (by norm_num))
  · obtain ⟨s, solvedA, evalA⟩ := firmA.exists_solved identity low (forward.trans high)
    obtain ⟨t, solvedB, evalB⟩ := firmB.exists_solved identity (low.trans forward) high
    rw [evalA, evalB]
    exact yAt_le_add first second solvedA.nonneg solvedA.le_one solvedB.nonneg solvedB.le_one
      (solvedA.le_add solvedB forward)

end Values

theorem upright_eval_monotone :
    (0 : ℝ) ≤ 1 / 2 ∧ (1 / 2 : ℝ) ≤ 3 / 4 ∧ (3 / 4 : ℝ) ≤ 1 ∧
      upright.Firm (1 / 2) ∧ upright.Firm (3 / 4) ∧
      upright.eval (1 / 2) ≤ upright.eval (3 / 4) + 1 / 10 ^ 6 := by
  have firmA : upright.Firm (1 / 2) := .inr (.inr (.inr upright_firmGuess_half))
  have firmB : upright.Firm (3 / 4) := .inr (.inr (.inr upright_firmGuess_threeQuarters))
  exact ⟨by norm_num, by norm_num, by norm_num, firmA, firmB,
    eval_monotone upright_y1 upright_y2 (by norm_num) (by norm_num) (by norm_num) firmA firmB⟩

/-- **Values of a curve that never falls are not ascending on every curve.** -/
theorem not_eval_monotone :
    ¬∀ cubic : UnitCubic ℝ, 0 ≤ cubic.y1 ∧ cubic.y1 ≤ 1 → 0 ≤ cubic.y2 ∧ cubic.y2 ≤ 1 →
      ∀ a b, 0 ≤ a → a ≤ b → b ≤ 1 → cubic.eval a ≤ cubic.eval b + 1 / 10 ^ 6 := by
  intro ascending
  have order := ascending upright upright_y1 upright_y2 0.5004 0.502 (by norm_num) (by norm_num)
    (by norm_num)
  rw [eval_inside upright_curved (by norm_num) (by norm_num),
    eval_inside upright_curved (by norm_num) (by norm_num)] at order
  obtain ⟨farLow, farHigh⟩ := upright_solve_far
  obtain ⟨closeLow, closeHigh⟩ := upright_solve_close
  have above : upright.yAt (1 / 2 + 1 / 10) ≤ upright.yAt (upright.solve 0.5004) :=
    Cubic.value_le_value upright_y1 upright_y2 (by norm_num) farLow (by linarith)
  have beneath : upright.yAt (upright.solve 0.502) ≤ upright.yAt (1 / 2 + 1 / 12) :=
    Cubic.value_le_value upright_y1 upright_y2 (by linarith) closeHigh (by norm_num)
  have values : upright.yAt (1 / 2 + 1 / 12) + 1 / 10 ^ 6 < upright.yAt (1 / 2 + 1 / 10) := by
    unfold yAt
    rw [Cubic.value_real, Cubic.value_real]
    norm_num [upright]
  linarith

end UnitCubic

end Easing
