/-
**Rounding to doubles.**

A nonnegative real is rounded on the grid of doubles of its size: the grid has the step
`2 ^ gridExponent x`, and of two equally near grid points the even one is taken.

* `roundEven`: the nearest whole number, an even one in the middle.
* `rounded`: the nearest point of the grid, which grows with the real (`rounded_mono`) and keeps
  what a double stores (`rounded_stored`).
* `roundWithAccuracy_rounded`: the rounding of an unpacked float is this one.
-/
import Easing.Proofs.Binary64.Encoding

namespace Easing.Binary64

open Float.Model.UnpackedFloat
open Float.Model (UnpackedFloat)

noncomputable section

/-! ### Rounding to whole numbers -/

/-- The nearest whole number, the even one of two. -/
def roundEven (x : ℝ) : ℤ :=
  if Int.fract x < 1 / 2 then ⌊x⌋
  else if 1 / 2 < Int.fract x then ⌊x⌋ + 1
  else ⌊x⌋ + ⌊x⌋ % 2

theorem floor_le_roundEven (x : ℝ) : ⌊x⌋ ≤ roundEven x := by
  unfold roundEven
  split_ifs <;> omega

theorem roundEven_le_floor_add_one (x : ℝ) : roundEven x ≤ ⌊x⌋ + 1 := by
  unfold roundEven
  split_ifs <;> omega

theorem roundEven_intCast (n : ℤ) : roundEven n = n := by
  unfold roundEven
  rw [if_pos (by norm_num), Int.floor_intCast]

/-- Rounding to whole numbers keeps the order. -/
theorem roundEven_mono {x y : ℝ} (le : x ≤ y) : roundEven x ≤ roundEven y := by
  rcases (Int.floor_mono le).lt_or_eq with below | same
  · exact (roundEven_le_floor_add_one x).trans (below.trans_le (floor_le_roundEven y))
  · have fractions : Int.fract x ≤ Int.fract y := by
      unfold Int.fract
      rw [same]
      linarith
    unfold roundEven
    rw [same]
    split_ifs <;> first | omega | (exfalso; linarith)

/-! ### Rounding to the grid of doubles -/

/-- The exponent of the grid that a real of this size is rounded to. -/
def gridExponent (x : ℝ) : ℤ := max (Int.log 2 x - 52) (-1074)

/-- The point of the grid nearest to a nonnegative real. -/
def rounded (x : ℝ) : ℝ := roundEven (x / 2 ^ gridExponent x) * 2 ^ gridExponent x

/-- The logarithm of a real between two powers. -/
theorem log_eq {x : ℝ} {k : ℤ} (lower : (2 : ℝ) ^ k ≤ x) (upper : x < 2 ^ (k + 1)) :
    Int.log 2 x = k := by
  have positive : 0 < x := lt_of_lt_of_le (by positivity) lower
  have le : k ≤ Int.log 2 x :=
    (Int.zpow_le_iff_le_log (by norm_num) positive).mp (by exact_mod_cast lower)
  have lt : Int.log 2 x < k + 1 :=
    (Int.lt_zpow_iff_log_lt (by norm_num) positive).mp (by exact_mod_cast upper)
  omega

theorem lt_two_zpow_log (x : ℝ) : x < 2 ^ (Int.log 2 x + 1) := by
  exact_mod_cast Int.lt_zpow_succ_log_self (by norm_num : 1 < 2) x

theorem two_zpow_log_le {x : ℝ} (positive : 0 < x) : (2 : ℝ) ^ Int.log 2 x ≤ x := by
  exact_mod_cast Int.zpow_log_le_self (by norm_num : 1 < 2) positive

theorem gridExponent_mono {x y : ℝ} (positive : 0 < x) (le : x ≤ y) :
    gridExponent x ≤ gridExponent y := by
  have := Int.log_mono_right (b := 2) positive le
  unfold gridExponent
  omega

theorem rounded_zero : rounded 0 = 0 := by
  unfold rounded
  rw [zero_div, show (0 : ℝ) = ((0 : ℤ) : ℝ) by norm_num, roundEven_intCast]
  norm_num

theorem rounded_nonneg {x : ℝ} (nonneg : 0 ≤ x) : 0 ≤ rounded x := by
  have floor : 0 ≤ ⌊x / 2 ^ gridExponent x⌋ := Int.floor_nonneg.mpr (by positivity)
  have whole : (0 : ℝ) ≤ roundEven (x / 2 ^ gridExponent x) := by
    exact_mod_cast floor.trans (floor_le_roundEven _)
  unfold rounded
  positivity

/-- A rounded real has at most `2 ^ 53` units of its grid. -/
theorem units_le (x : ℝ) : roundEven (x / 2 ^ gridExponent x) ≤ 2 ^ 53 := by
  have exponent : Int.log 2 x + 1 ≤ 53 + gridExponent x := by
    unfold gridExponent
    omega
  have below : x / 2 ^ gridExponent x < 2 ^ (53 : ℤ) := by
    rw [div_lt_iff₀ (by positivity), ← zpow_add₀ (by norm_num)]
    exact (lt_two_zpow_log x).trans_le (zpow_le_zpow_right₀ (by norm_num) exponent)
  have floor : ⌊x / 2 ^ gridExponent x⌋ < 2 ^ 53 := by
    rw [Int.floor_lt]
    exact_mod_cast below
  have := roundEven_le_floor_add_one (x / 2 ^ gridExponent x)
  omega

/-- On every grid but the finest a rounded real has at least `2 ^ 52` units. -/
theorem le_units {x : ℝ} (positive : 0 < x) (coarse : gridExponent x ≠ -1074) :
    2 ^ 52 ≤ roundEven (x / 2 ^ gridExponent x) := by
  have exponent : 52 + gridExponent x = Int.log 2 x := by
    unfold gridExponent at coarse ⊢
    omega
  have above : (2 : ℝ) ^ (52 : ℤ) ≤ x / 2 ^ gridExponent x := by
    rw [le_div_iff₀ (by positivity), ← zpow_add₀ (by norm_num), exponent]
    exact two_zpow_log_le positive
  refine le_trans ?_ (floor_le_roundEven _)
  rw [Int.le_floor]
  exact_mod_cast above

/-- A real is rounded to at most the next power of two. -/
theorem rounded_le (x : ℝ) : rounded x ≤ 2 ^ (gridExponent x + 53) := by
  have units := units_le x
  unfold rounded
  rw [add_comm, zpow_add₀ (by norm_num)]
  exact mul_le_mul_of_nonneg_right (by exact_mod_cast units) (by positivity)

/-- On every grid but the finest a real is rounded to at least the power of two below it. -/
theorem le_rounded {x : ℝ} (positive : 0 < x) (coarse : gridExponent x ≠ -1074) :
    2 ^ (gridExponent x + 52) ≤ rounded x := by
  have units := le_units positive coarse
  unfold rounded
  rw [add_comm, zpow_add₀ (by norm_num)]
  exact mul_le_mul_of_nonneg_right (by exact_mod_cast units) (by positivity)

/-- **Rounding keeps the order.** -/
theorem rounded_mono {x y : ℝ} (nonneg : 0 ≤ x) (le : x ≤ y) : rounded x ≤ rounded y := by
  rcases nonneg.eq_or_lt with rfl | positive
  · rw [rounded_zero]
    exact rounded_nonneg le
  rcases (gridExponent_mono positive le).lt_or_eq with finer | same
  · -- the power of two between the two grids separates the results
    have coarse : gridExponent y ≠ -1074 := by
      have : -1074 ≤ gridExponent x := le_max_right _ _
      omega
    calc rounded x ≤ 2 ^ (gridExponent x + 53) := rounded_le x
      _ ≤ 2 ^ (gridExponent y + 52) := zpow_le_zpow_right₀ (by norm_num) (by omega)
      _ ≤ rounded y := le_rounded (positive.trans_le le) coarse
  · unfold rounded
    rw [same]
    have : roundEven (x / 2 ^ gridExponent y) ≤ roundEven (y / 2 ^ gridExponent y) :=
      roundEven_mono (div_le_div_of_nonneg_right le (by positivity))
    exact mul_le_mul_of_nonneg_right (by exact_mod_cast this) (by positivity)

/-! ### Mantissas with a round bit and a sticky bit -/

/-- A nonnegative real as a mantissa with what its round bit and its sticky bit tell of the
fraction. -/
structure Describes (em : ExtendedMantissa) (x : ℝ) : Prop where
  floor : ⌊x⌋ = em.mantissa
  half : em.roundBit = true ↔ 1 / 2 ≤ Int.fract x
  rest : em.stickyBit = true ↔ Int.fract x ≠ 0 ∧ Int.fract x ≠ 1 / 2

/-- A mantissa with a fraction is described by the mantissa and the fraction's two bits. -/
theorem Describes.of_fraction (em : ExtendedMantissa) {fraction : ℝ} (nonneg : 0 ≤ fraction)
    (small : fraction < 1) (half : em.roundBit = true ↔ 1 / 2 ≤ fraction)
    (rest : em.stickyBit = true ↔ fraction ≠ 0 ∧ fraction ≠ 1 / 2) :
    Describes em (em.mantissa + fraction) := by
  have floor : ⌊(em.mantissa + fraction : ℝ)⌋ = em.mantissa := by
    rw [Int.floor_eq_iff]
    push_cast
    constructor <;> linarith
  have fract : Int.fract (em.mantissa + fraction : ℝ) = fraction := by
    unfold Int.fract
    rw [floor]
    push_cast
    ring
  exact ⟨floor, by rw [fract]; exact half, by rw [fract]; exact rest⟩

theorem Describes.exact (mantissa : ℕ) :
    Describes (ExtendedMantissa.ofMantissaAndAccuracy mantissa .exact) mantissa := by
  have := Describes.of_fraction ⟨mantissa, false, false⟩ le_rfl zero_lt_one (by norm_num)
    (by norm_num)
  rwa [add_zero] at this

/-- A quotient is described by its whole part and the accuracy of the remainder. -/
theorem Describes.quotient (numerator : ℕ) {denominator : ℕ} (positive : 0 < denominator) :
    Describes (ExtendedMantissa.ofMantissaAndAccuracy (numerator / denominator)
      (accuracyOfFraction (numerator % denominator) denominator))
      ((numerator : ℝ) / denominator) := by
  have positive' : (0 : ℝ) < denominator := by exact_mod_cast positive
  have split : (numerator : ℝ) / denominator =
      (numerator / denominator : ℕ) + (numerator % denominator : ℕ) / denominator := by
    have := Nat.div_add_mod numerator denominator
    field_simp
    exact_mod_cast this.symm
  have small : ((numerator % denominator : ℕ) : ℝ) / denominator < 1 := by
    rw [div_lt_one positive']
    exact_mod_cast Nat.mod_lt _ positive
  have nonneg : (0 : ℝ) ≤ ((numerator % denominator : ℕ) : ℝ) / denominator := by positivity
  rw [split]
  generalize numerator % denominator = remainder at small nonneg ⊢
  generalize numerator / denominator = whole
  have doubled : ((2 * remainder : ℕ) : ℝ) = 2 * remainder := by push_cast; rfl
  unfold accuracyOfFraction
  split_ifs with zero
  · subst zero
    exact Describes.of_fraction ⟨whole, false, false⟩ nonneg small (by norm_num)
      (by norm_num)
  have nonzero : (remainder : ℝ) / denominator ≠ 0 := by
    have : (remainder : ℝ) ≠ 0 := by exact_mod_cast zero
    positivity
  rcases lt_trichotomy (2 * remainder) denominator with below | middle | above
  · rw [compare_lt_iff_lt.mpr below]
    have below' : (remainder : ℝ) / denominator < 1 / 2 := by
      rw [div_lt_iff₀ positive']
      have : (2 * remainder : ℝ) < denominator := by exact_mod_cast below
      linarith
    exact Describes.of_fraction ⟨whole, false, true⟩ nonneg small
      ⟨by simp, fun le => absurd le (not_le.mpr below')⟩
      ⟨fun _ => ⟨nonzero, below'.ne⟩, fun _ => rfl⟩
  · rw [compare_eq_iff_eq.mpr middle]
    have middle' : (remainder : ℝ) / denominator = 1 / 2 := by
      rw [div_eq_iff positive'.ne']
      have : (2 * remainder : ℝ) = denominator := by exact_mod_cast middle
      linarith
    exact Describes.of_fraction ⟨whole, true, false⟩ nonneg small
      ⟨fun _ => middle'.ge, fun _ => rfl⟩ ⟨by simp, fun both => absurd middle' both.2⟩
  · rw [compare_gt_iff_gt.mpr above]
    have above' : 1 / 2 < (remainder : ℝ) / denominator := by
      rw [lt_div_iff₀ positive']
      have : (denominator : ℝ) < 2 * remainder := by exact_mod_cast above
      linarith
    exact Describes.of_fraction ⟨whole, true, true⟩ nonneg small
      ⟨fun _ => above'.le, fun _ => rfl⟩ ⟨fun _ => ⟨nonzero, above'.ne'⟩, fun _ => rfl⟩

/-- A shift by one place halves the real. -/
theorem Describes.shiftRightOne {em : ExtendedMantissa} {x : ℝ} (describes : Describes em x) :
    Describes em.shiftRightOne (x / 2) := by
  obtain ⟨floor, half, rest⟩ := describes
  have nonneg := Int.fract_nonneg x
  have small := Int.fract_lt_one x
  have whole : (em.mantissa : ℝ) = 2 * (em.mantissa / 2 : ℕ) + (em.mantissa % 2 : ℕ) := by
    have := Nat.div_add_mod em.mantissa 2
    exact_mod_cast this.symm
  have split : x / 2 = (em.mantissa / 2 : ℕ) + ((em.mantissa % 2 : ℕ) + Int.fract x) / 2 := by
    have := Int.floor_add_fract x
    rw [floor] at this
    push_cast at this whole ⊢
    linarith
  rw [split]
  have bit : em.mantissa % 2 = 0 ∨ em.mantissa % 2 = 1 := by omega
  have sticky : (em.roundBit || em.stickyBit) = true ↔ Int.fract x ≠ 0 := by
    rw [Bool.or_eq_true, half, rest]
    constructor
    · rintro (above | both)
      · linarith
      · exact both.1
    · intro nonzero
      by_cases middle : Int.fract x = 1 / 2
      · exact Or.inl middle.ge
      · exact Or.inr ⟨nonzero, middle⟩
  refine Describes.of_fraction em.shiftRightOne (by positivity) ?_ ?_ ?_
  · rcases bit with even | odd
    · rw [even]; norm_num; linarith
    · rw [odd]; norm_num; linarith
  · rcases bit with even | odd
    · simp only [ExtendedMantissa.shiftRightOne, even]
      norm_num
      linarith
    · simp only [ExtendedMantissa.shiftRightOne, odd]
      norm_num
      linarith
  · simp only [ExtendedMantissa.shiftRightOne, sticky]
    rcases bit with even | odd
    · rw [even]
      norm_num
      intro _ full
      linarith
    · rw [odd]
      norm_num
      intro _ zero
      linarith

theorem Describes.shiftRight {em : ExtendedMantissa} {x : ℝ} (describes : Describes em x) (n : ℕ) :
    Describes (em >>> n) (x / 2 ^ n) := by
  show Describes (n.repeat ExtendedMantissa.shiftRightOne em) (x / 2 ^ n)
  induction n with
  | zero => simpa [Nat.repeat] using describes
  | succ n ih =>
    rw [Nat.repeat, pow_succ, ← div_div]
    exact ih.shiftRightOne

/-- The rounded mantissa is the nearest whole number. -/
theorem Describes.roundedMantissa {em : ExtendedMantissa} {x : ℝ} (describes : Describes em x) :
    (em.roundedMantissa : ℤ) = roundEven x := by
  obtain ⟨floor, half, rest⟩ := describes
  rcases em with ⟨mantissa, roundBit, stickyBit⟩
  simp only at floor half rest
  unfold roundEven
  rw [floor]
  cases roundBit <;> cases stickyBit <;>
    simp only [ExtendedMantissa.roundedMantissa, ExtendedMantissa.accuracy,
      Accuracy.roundToNearestEven, Bool.false_eq_true, false_iff, true_iff] at half rest ⊢
  · rw [if_pos (not_le.mp half)]
  · rw [if_pos (not_le.mp half)]
  · have middle : Int.fract x = 1 / 2 := by
      by_contra other
      exact rest ⟨by linarith, other⟩
    rw [if_neg half.not_gt, if_neg middle.not_gt]
    push_cast
    rfl
  · rw [if_neg half.not_gt, if_pos (half.lt_of_ne' rest.2)]
    push_cast
    rfl

/-! ### Rounding an unpacked float -/

/-- An unpacked float with the given sign and the given absolute value. -/
def StandsFor (sign : Sign) (magnitude : ℝ) : UnpackedFloat → Prop
  | .zero other => other = sign ∧ magnitude = 0
  | .finite other mantissa exponent _ =>
    other = sign ∧ Stored mantissa exponent ∧ mantissa * 2 ^ exponent = magnitude
  | _ => False

theorem shiftToExponent_eq (mantissa : ℕ) {exponent target : ℤ} (accuracy : Accuracy)
    (le : exponent ≤ target) :
    shiftToExponent mantissa exponent accuracy target =
      (ExtendedMantissa.ofMantissaAndAccuracy mantissa accuracy >>> (target - exponent).toNat,
        target) := by
  unfold shiftToExponent
  rw [Prod.mk.injEq]
  exact ⟨rfl, by omega⟩

theorem targetExponent_eq (mantissa : ℕ) (exponent : ℤ) :
    Float.Model.Format.binary64.targetExponent (Float.Model.totalExponent mantissa exponent) =
      max (mantissa.log2 + exponent - 52) (-1074) := by
  show max ((mantissa.log2 : ℤ) + 1 + exponent - 53) (-1074) = _
  congr 1
  ring

/-- The logarithm of a real with a positive whole part in units of a power of two. -/
theorem log_of_floor {mantissa : ℕ} {exponent : ℤ} {x : ℝ} (positive : 0 < mantissa)
    (floor : ⌊x / 2 ^ exponent⌋ = mantissa) : Int.log 2 x = mantissa.log2 + exponent := by
  obtain ⟨lower, upper⟩ := Int.floor_eq_iff.mp floor
  rw [le_div_iff₀ (by positivity)] at lower
  rw [div_lt_iff₀ (by positivity)] at upper
  push_cast at lower upper
  have below : ((2 ^ mantissa.log2 : ℕ) : ℝ) ≤ mantissa := by
    exact_mod_cast Nat.log2_self_le positive.ne'
  have above : (mantissa + 1 : ℝ) ≤ (2 ^ (mantissa.log2 + 1) : ℕ) := by
    exact_mod_cast Nat.lt_log2_self
  apply log_eq
  · rw [zpow_add₀ (by norm_num), zpow_natCast]
    refine le_trans (mul_le_mul_of_nonneg_right ?_ (by positivity)) lower
    exact_mod_cast below
  · rw [add_right_comm, zpow_add₀ (by norm_num)]
    refine upper.trans_le (mul_le_mul_of_nonneg_right ?_ (by positivity))
    exact_mod_cast above

theorem floor_units (mantissa : ℕ) (exponent : ℤ) :
    ⌊(mantissa : ℝ) * 2 ^ exponent / 2 ^ exponent⌋ = mantissa := by
  rw [mul_div_cancel_right₀ _ (by positivity), Int.floor_natCast]

/-- The grid of a float is the one that rounding shifts to. -/
theorem targetExponent_of_floor {mantissa : ℕ} {exponent : ℤ} {x : ℝ} (positive : 0 < mantissa)
    (floor : ⌊x / 2 ^ exponent⌋ = mantissa) :
    Float.Model.Format.binary64.targetExponent (Float.Model.totalExponent mantissa exponent) =
      gridExponent x := by
  rw [targetExponent_eq, gridExponent, log_of_floor positive floor]

/-- A float whose exponent is fine enough is shifted to the grid of its value. -/
theorem targetExponent_eq_gridExponent {mantissa : ℕ} {exponent : ℤ} {x : ℝ} (positive : 0 < x)
    (floor : ⌊x / 2 ^ exponent⌋ = mantissa) (fine : exponent ≤ gridExponent x) :
    Float.Model.Format.binary64.targetExponent (Float.Model.totalExponent mantissa exponent) =
      gridExponent x := by
  rcases Nat.eq_zero_or_pos mantissa with rfl | some
  · -- below one unit the exponent can only be the smallest one or less
    have upper := (Int.floor_eq_iff.mp floor).2
    rw [div_lt_iff₀ (by positivity)] at upper
    have log : Int.log 2 x < exponent := by
      refine (Int.lt_zpow_iff_log_lt (by norm_num) positive).mp ?_
      norm_num at upper ⊢
      exact upper
    rw [targetExponent_eq, Nat.log2_zero]
    unfold gridExponent at fine ⊢
    omega
  · exact targetExponent_of_floor some floor

/-- After rounding, one more place is shifted out when the mantissa has become too great. -/
theorem standsFor_carry (sign : Sign) {units : ℕ} {exponent : ℤ} (below : units ≤ 2 ^ 53)
    (above : -1074 ≤ exponent) (full : 2 ^ 52 ≤ units ∨ exponent = -1074) :
    StandsFor sign (units * 2 ^ exponent)
      (let carried := shiftToTargetExponent .binary64 units exponent .exact
        if zero : carried.1.mantissa = 0 then .zero sign
        else .finite sign carried.1.mantissa carried.2 (Nat.pos_of_ne_zero zero)) := by
  rcases below.lt_or_eq with small | rfl
  · have log : units.log2 < 53 := by
      rcases Nat.eq_zero_or_pos units with rfl | positive
      · norm_num
      · exact (Nat.log2_lt positive.ne').mpr small
    have carried : shiftToTargetExponent .binary64 units exponent .exact =
        (⟨units, false, false⟩, exponent) := by
      unfold shiftToTargetExponent shiftToExponent
      rw [targetExponent_eq]
      have none : (max ((units.log2 : ℤ) + exponent - 52) (-1074) - exponent).toNat = 0 := by omega
      dsimp only
      rw [none, Nat.cast_zero, add_zero]
      rfl
    rw [carried]
    simp only
    split_ifs with zero
    · exact ⟨rfl, by rw [zero]; norm_num⟩
    · exact ⟨rfl, ⟨small, above, full⟩, rfl⟩
  · have carried : shiftToTargetExponent .binary64 (2 ^ 53) exponent .exact =
        (⟨2 ^ 52, false, false⟩, exponent + 1) := by
      unfold shiftToTargetExponent shiftToExponent
      rw [targetExponent_eq, Nat.log2_two_pow]
      have one : (max (((53 : ℕ) : ℤ) + exponent - 52) (-1074) - exponent).toNat = 1 := by
        push_cast
        omega
      dsimp only
      rw [one]
      rfl
    rw [carried]
    simp only
    rw [dif_neg (by norm_num)]
    refine ⟨rfl, ⟨by norm_num, by omega, Or.inl le_rfl⟩, ?_⟩
    rw [zpow_add_one₀ (by norm_num)]
    push_cast
    ring

/-- **The rounding of an unpacked float** is the rounding of the real that it describes. -/
theorem roundWithAccuracy_rounded (sign : Sign) {mantissa : ℕ} {exponent : ℤ} {accuracy : Accuracy}
    {x : ℝ} (positive : 0 < x)
    (describes : Describes (ExtendedMantissa.ofMantissaAndAccuracy mantissa accuracy)
      (x / 2 ^ exponent))
    (fine : exponent ≤ gridExponent x) :
    StandsFor sign (rounded x) (roundWithAccuracy .binary64 sign mantissa exponent accuracy) := by
  have floor : ⌊x / 2 ^ exponent⌋ = mantissa := by
    rw [describes.floor]
    rcases accuracy with _ | order
    · rfl
    · cases order <;> rfl
  have target := targetExponent_eq_gridExponent positive floor fine
  have shifted : shiftToTargetExponent .binary64 mantissa exponent accuracy =
      (ExtendedMantissa.ofMantissaAndAccuracy mantissa accuracy >>>
        (gridExponent x - exponent).toNat, gridExponent x) := by
    unfold shiftToTargetExponent
    rw [target]
    exact shiftToExponent_eq mantissa accuracy fine
  have scaled : x / 2 ^ exponent / 2 ^ (gridExponent x - exponent).toNat =
      x / 2 ^ gridExponent x := by
    rw [div_div, ← zpow_natCast, ← zpow_add₀ (by norm_num)]
    congr 2
    omega
  have grid := describes.shiftRight (gridExponent x - exponent).toNat
  rw [scaled] at grid
  have units := grid.roundedMantissa
  unfold roundWithAccuracy
  rw [shifted]
  simp only
  generalize (ExtendedMantissa.ofMantissaAndAccuracy mantissa accuracy >>>
    (gridExponent x - exponent).toNat).roundedMantissa = count at units ⊢
  have below := units_le x
  have value : rounded x = count * 2 ^ gridExponent x := by
    unfold rounded
    rw [← units]
    push_cast
    rfl
  rw [value]
  refine standsFor_carry sign (by omega) (le_max_right _ _) ?_
  by_cases coarse : gridExponent x = -1074
  · exact Or.inr coarse
  · have := le_units positive coarse
    exact Or.inl (by omega)

/-- Rounding keeps what a double stores. -/
theorem rounded_stored {mantissa : ℕ} {exponent : ℤ} (stored : Stored mantissa exponent) :
    rounded (mantissa * 2 ^ exponent) = mantissa * 2 ^ exponent := by
  rcases Nat.eq_zero_or_pos mantissa with rfl | positive
  · rw [Nat.cast_zero, zero_mul, rounded_zero]
  have real : (0 : ℝ) < mantissa * 2 ^ exponent := by positivity
  have whole : (mantissa : ℝ) * 2 ^ exponent / 2 ^ exponent = ((mantissa : ℤ) : ℝ) := by
    rw [mul_div_cancel_right₀ _ (by positivity)]
    push_cast
    rfl
  have grid : gridExponent (mantissa * 2 ^ exponent) = exponent := by
    obtain ⟨below, above, full⟩ := stored
    have log := log_of_floor positive (floor_units mantissa exponent)
    have bound : mantissa.log2 < 53 := (Nat.log2_lt positive.ne').mpr below
    unfold gridExponent
    rw [log]
    rcases full with full | rfl
    · rw [(log2_eq_iff below).mpr full]
      push_cast
      omega
    · omega
  unfold rounded
  rw [grid, whole, roundEven_intCast]
  push_cast
  rfl

end

end Easing.Binary64
