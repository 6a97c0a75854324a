/-
**The decimals that are read as one double.**

A decimal is read as the double that it is rounded to. `Magnitude.readsBack` decides this with
natural numbers; here its answer is shown to be the right one.

* `Magnitude.Legal`: what a double makes of the fields of a magnitude.
* `Magnitude.readsBack_iff`: the test, as bounds on the decimal.
* `Magnitude.rounded_of_readsBack`: a decimal that passes the test is rounded to the magnitude.
* `Magnitude.Legal.eq_of_value_eq`: so it is rounded to no other.
-/
import Easing.Decimal.Shortest
import Easing.Proofs.Binary64.Rounding
import Easing.Proofs.Decimal.Binary

namespace Easing.Decimal

open Easing.Binary64

noncomputable section

/-- The value of a decimal. -/
def Scaled.value (d : Scaled) : ℝ := d.digits * 10 ^ d.place

namespace Magnitude

variable {m m' : Magnitude} {place : ℤ} {n : ℕ}

/-- The value of a magnitude. -/
def value (m : Magnitude) : ℝ := m.units * 2 ^ m.exponent

/-- The magnitudes of doubles. -/
structure Legal (m : Magnitude) : Prop where
  stored : Stored m.units m.exponent
  positive : 0 < m.units
  narrow : m.narrowBelow = true ↔ m.units = 2 ^ 52 ∧ m.exponent ≠ -1074

theorem value_pos (positive : 0 < m.units) : 0 < m.value := by
  have : (0 : ℝ) < m.units := by exact_mod_cast positive
  unfold value
  positivity

/-- Magnitudes of one value are one. -/
theorem Legal.eq_of_value_eq (legal : m.Legal) (legal' : m'.Legal) (same : m.value = m'.value) :
    m = m' := by
  have exponents : m.exponent = m'.exponent := by
    rcases lt_trichotomy m.exponent m'.exponent with lt | equal | gt
    · exact absurd same (legal.stored.lt_of_exponent_lt legal'.stored lt).ne
    · exact equal
    · exact absurd same (legal'.stored.lt_of_exponent_lt legal.stored gt).ne'
  have units : m.units = m'.units := by
    unfold value at same
    rw [exponents] at same
    have : (m.units : ℝ) = m'.units := mul_right_cancel₀ (by positivity) same
    exact_mod_cast this
  have narrow : m.narrowBelow = m'.narrowBelow := by
    rw [Bool.eq_iff_iff, legal.narrow, legal'.narrow, units, exponents]
  cases m
  cases m'
  simp only at exponents units narrow
  rw [exponents, units, narrow]

/-- Doubles have legal magnitudes. -/
theorem legal_ofFloat {a : Float} {negative : Bool} {m : Magnitude}
    (finite : Double.ofFloat a = .finite negative m) : m.Legal := by
  unfold Double.ofFloat at finite
  obtain ⟨exponent, exponentField⟩ :
      ∃ exponent, a.toBits.toNat / 2 ^ 52 % 2 ^ 11 = exponent := ⟨_, rfl⟩
  obtain ⟨mantissa, mantissaField⟩ : ∃ mantissa, a.toBits.toNat % 2 ^ 52 = mantissa := ⟨_, rfl⟩
  have small : mantissa < 2 ^ 52 := by
    rw [← mantissaField]
    exact Nat.mod_lt _ (by decide)
  rw [ofBits_eq exponentField mantissaField] at finite
  split_ifs at finite with top infinite least empty
  · obtain ⟨-, rfl⟩ := Double.finite.inj finite
    exact ⟨⟨by show mantissa < 2 ^ 53; omega, le_rfl, Or.inr rfl⟩, Nat.pos_of_ne_zero empty,
      by simp⟩
  · obtain ⟨-, rfl⟩ := Double.finite.inj finite
    refine ⟨⟨?_, ?_, Or.inl ?_⟩, ?_, ?_⟩
    · show 2 ^ 52 + mantissa < 2 ^ 53
      omega
    · show -1074 ≤ (exponent : ℤ) - 1075
      omega
    · show 2 ^ 52 ≤ 2 ^ 52 + mantissa
      omega
    · show 0 < 2 ^ 52 + mantissa
      omega
    · show (mantissa == 0 && exponent != 1) = true ↔
        2 ^ 52 + mantissa = 2 ^ 52 ∧ (exponent : ℤ) - 1075 ≠ -1074
      rw [Bool.and_eq_true, beq_iff_eq, bne_iff_ne]
      omega

/-! ### The common scale -/

/-- The factor by which values and decimals are scaled to natural numbers. -/
def scale (m : Magnitude) (place : ℤ) : ℝ := 10 ^ (-place).toNat * 2 ^ (2 - m.exponent).toNat

theorem scale_pos (m : Magnitude) (place : ℤ) : 0 < m.scale place := by
  unfold scale
  positivity

/-- Of a power, either the power itself or its inverse is whole. -/
theorem pow_toNat_eq {base : ℝ} (nonzero : base ≠ 0) (k : ℤ) :
    base ^ k.toNat = base ^ k * base ^ (-k).toNat := by
  rcases le_total 0 k with nonneg | nonpos
  · rw [Int.toNat_eq_zero.mpr (by omega : -k ≤ 0), pow_zero, mul_one, ← zpow_natCast,
      Int.toNat_of_nonneg nonneg]
  · rw [Int.toNat_eq_zero.mpr nonpos, pow_zero, ← zpow_natCast base (-k).toNat,
      Int.toNat_of_nonneg (by omega : 0 ≤ -k), ← zpow_add₀ nonzero, add_neg_cancel, zpow_zero]

theorem scaleQuarters_eq (m : Magnitude) (place : ℤ) (quarters : ℕ) :
    (m.scaleQuarters place quarters : ℝ) = quarters * 2 ^ (m.exponent - 2) * m.scale place := by
  have two : (2 : ℝ) ^ (m.exponent - 2).toNat =
      2 ^ (m.exponent - 2) * 2 ^ (2 - m.exponent).toNat := by
    rw [pow_toNat_eq two_ne_zero, neg_sub]
  unfold scaleQuarters scale
  rw [Nat.pow_eq, Nat.pow_eq]
  push_cast
  rw [two]
  ring

theorem scaleStep_eq (m : Magnitude) (place : ℤ) :
    (m.scaleStep place : ℝ) = 10 ^ place * m.scale place := by
  unfold scaleStep scale
  rw [Nat.pow_eq, Nat.pow_eq]
  push_cast
  rw [pow_toNat_eq (by norm_num : (10 : ℝ) ≠ 0)]
  ring

theorem scaleStep_pos (m : Magnitude) (place : ℤ) : 0 < m.scaleStep place := by
  have : (0 : ℝ) < m.scaleStep place := by
    rw [scaleStep_eq]
    have := m.scale_pos place
    positivity
  exact_mod_cast this

/-- Whole numbers compare as the reals they are multiples of by the scale. -/
theorem scaled_le_iff {a b : ℕ} {x y : ℝ} (first : (a : ℝ) = x * m.scale place)
    (second : (b : ℝ) = y * m.scale place) : a ≤ b ↔ x ≤ y := by
  rw [← @Nat.cast_le ℝ, first, second]
  exact mul_le_mul_iff_left₀ (m.scale_pos place)

theorem decimal_eq (m : Magnitude) (n : ℕ) (place : ℤ) :
    ((n * m.scaleStep place : ℕ) : ℝ) = n * 10 ^ place * m.scale place := by
  rw [Nat.cast_mul, scaleStep_eq, ← mul_assoc]

theorem decimal_le_iff (quarters : ℕ) :
    n * m.scaleStep place ≤ m.scaleQuarters place quarters ↔
      (n : ℝ) * 10 ^ place ≤ quarters * 2 ^ (m.exponent - 2) :=
  scaled_le_iff (m.decimal_eq n place) (m.scaleQuarters_eq place quarters)

theorem le_decimal_iff (quarters : ℕ) :
    m.scaleQuarters place quarters ≤ n * m.scaleStep place ↔
      (quarters : ℝ) * 2 ^ (m.exponent - 2) ≤ n * 10 ^ place :=
  scaled_le_iff (m.scaleQuarters_eq place quarters) (m.decimal_eq n place)

/-! ### The interval -/

/-- The half of the gap to the next smaller double, in units. -/
def gapBelow (m : Magnitude) : ℝ := if m.narrowBelow then 1 / 4 else 1 / 2

theorem gapBelow_pos (m : Magnitude) : 0 < m.gapBelow := by
  unfold gapBelow
  split <;> norm_num

theorem gapBelow_le (m : Magnitude) : m.gapBelow ≤ 1 / 2 := by
  unfold gapBelow
  split <;> norm_num

/-- So many units lie in the interval of a magnitude, with its ends when its units are even. -/
def Holds (m : Magnitude) (y : ℝ) : Prop :=
  if Even m.units then m.units - m.gapBelow ≤ y ∧ y ≤ m.units + 1 / 2
  else m.units - m.gapBelow < y ∧ y < m.units + 1 / 2

theorem Holds.bounds {y : ℝ} (holds : m.Holds y) :
    m.units - m.gapBelow ≤ y ∧ y ≤ m.units + 1 / 2 := by
  unfold Holds at holds
  split_ifs at holds
  · exact holds
  · exact ⟨holds.1.le, holds.2.le⟩

theorem Holds.strict {y : ℝ} (holds : m.Holds y) (odd : ¬Even m.units) :
    m.units - m.gapBelow < y ∧ y < m.units + 1 / 2 := by
  unfold Holds at holds
  rwa [if_neg odd] at holds

theorem Holds.of_strict {y : ℝ} (above : m.units - m.gapBelow < y) (below : y < m.units + 1 / 2) :
    m.Holds y := by
  unfold Holds
  split_ifs
  · exact ⟨above.le, below.le⟩
  · exact ⟨above, below⟩

theorem quarter_eq (m : Magnitude) : (2 : ℝ) ^ (m.exponent - 2) = 2 ^ m.exponent / 4 := by
  rw [zpow_sub₀ two_ne_zero]
  norm_num

theorem low_eq (positive : 0 < m.units) :
    (m.lowQuarters : ℝ) * 2 ^ (m.exponent - 2) = (m.units - m.gapBelow) * 2 ^ m.exponent := by
  have : (m.lowQuarters : ℝ) = 4 * (m.units - m.gapBelow) := by
    unfold lowQuarters gapBelow
    rw [Nat.cast_sub (by split <;> omega)]
    split <;> push_cast <;> ring
  rw [this, quarter_eq]
  ring

theorem high_eq (m : Magnitude) :
    (m.highQuarters : ℝ) * 2 ^ (m.exponent - 2) = (m.units + 1 / 2) * 2 ^ m.exponent := by
  rw [quarter_eq]
  unfold highQuarters
  push_cast
  ring

theorem readsBack_iff (positive : 0 < m.units) :
    m.readsBack place n = true ↔ m.Holds (n * 10 ^ place / 2 ^ m.exponent) := by
  have unit : (0 : ℝ) < 2 ^ m.exponent := by positivity
  unfold readsBack Holds
  simp only [← Nat.even_iff]
  split_ifs
  · rw [Bool.and_eq_true, decide_eq_true_eq, decide_eq_true_eq, le_decimal_iff, decimal_le_iff,
      low_eq positive, high_eq, le_div_iff₀ unit, div_le_iff₀ unit]
  · rw [Bool.and_eq_true, decide_eq_true_eq, decide_eq_true_eq, ← not_le, ← not_le, ← not_le,
      ← not_le, le_decimal_iff, decimal_le_iff, low_eq positive, high_eq, le_div_iff₀ unit,
      div_le_iff₀ unit]

/-! ### Rounding -/

/-- What is within half a unit is rounded to it, when it is nearer than half a unit or the whole
number is even. -/
theorem roundEven_eq {y : ℝ} {k : ℤ} (above : k - 1 / 2 ≤ y) (below : y ≤ k + 1 / 2)
    (strict : ¬Even k → k - 1 / 2 < y ∧ y < k + 1 / 2) : roundEven y = k := by
  have fract := Int.self_sub_floor y
  rcases lt_or_ge y k with less | ge
  · have floor : ⌊y⌋ = k - 1 := by
      rw [Int.floor_eq_iff]
      push_cast
      constructor <;> linarith
    rw [floor] at fract
    push_cast at fract
    unfold roundEven
    rw [floor, if_neg (by linarith)]
    split_ifs with more
    · omega
    · -- halfway: the whole number is even
      have even : Even k := by
        by_contra odd
        have := (strict odd).1
        linarith
      rw [Int.even_iff] at even
      omega
  · have floor : ⌊y⌋ = k := by
      rw [Int.floor_eq_iff]
      constructor <;> linarith
    rw [floor] at fract
    unfold roundEven
    rw [floor]
    split_ifs with less more
    · rfl
    · linarith
    · have even : Even k := by
        by_contra odd
        have := (strict odd).2
        linarith
      rw [Int.even_iff] at even
      omega

theorem gridExponent_eq {x : ℝ} {e : ℤ} (positive : 0 < x) (least : -1074 ≤ e)
    (above : 2 ^ 52 ≤ x / 2 ^ e ∨ e = -1074) (below : x / 2 ^ e < 2 ^ 53) : gridExponent x = e := by
  have unit : (0 : ℝ) < 2 ^ e := by positivity
  have top : x < 2 ^ (52 + e + 1) := by
    rw [show 52 + e + 1 = 53 + e by ring, zpow_add₀ two_ne_zero]
    exact (div_lt_iff₀ unit).mp (by exact_mod_cast below)
  have log : Int.log 2 x < 52 + e + 1 :=
    (Int.lt_zpow_iff_log_lt (by norm_num) positive).mp (by exact_mod_cast top)
  unfold gridExponent
  rcases above with above | rfl
  · have bottom : (2 : ℝ) ^ (52 + e) ≤ x := by
      rw [zpow_add₀ two_ne_zero]
      exact (le_div_iff₀ unit).mp (by exact_mod_cast above)
    rw [log_eq bottom top]
    omega
  · omega

/-- **A decimal in the interval is rounded to the magnitude.** -/
theorem Legal.rounded_eq {x : ℝ} (legal : m.Legal) (holds : m.Holds (x / 2 ^ m.exponent)) :
    rounded x = m.value := by
  obtain ⟨⟨small, least, full⟩, units, narrow⟩ := legal
  obtain ⟨above, below⟩ := holds.bounds
  have gap := m.gapBelow_le
  have one : (1 : ℝ) ≤ m.units := by exact_mod_cast units
  have most : (m.units : ℝ) + 1 ≤ 2 ^ 53 := by exact_mod_cast small
  have positive : 0 < x := by
    have : 0 < x / 2 ^ m.exponent := by linarith
    exact (div_pos_iff_of_pos_right (by positivity)).mp this
  by_cases inner : m.narrowBelow = true ∧ x / 2 ^ m.exponent < m.units
  · -- below a power of two the grid is finer
    obtain ⟨units, coarse⟩ := narrow.mp inner.1
    have units' : (m.units : ℝ) = 2 ^ 52 := by exact_mod_cast units
    have finer : x / 2 ^ (m.exponent - 1) = 2 * (x / 2 ^ m.exponent) := by
      rw [zpow_sub_one₀ two_ne_zero]
      field_simp
    have narrowGap : m.gapBelow = 1 / 4 := by
      unfold gapBelow
      rw [if_pos inner.1]
    rw [narrowGap] at above
    have grid : gridExponent x = m.exponent - 1 := by
      refine gridExponent_eq positive (by omega) (Or.inl ?_) ?_ <;> rw [finer] <;> linarith
    have whole : roundEven (x / 2 ^ (m.exponent - 1)) = 2 ^ 53 := by
      have even : Even (2 ^ 53 : ℤ) := by decide
      refine roundEven_eq ?_ ?_ fun odd => absurd even odd <;> rw [finer] <;> push_cast <;>
        linarith
    unfold rounded value
    rw [grid, whole, units', zpow_sub_one₀ two_ne_zero]
    push_cast
    ring
  · have full' : 2 ^ 52 ≤ x / 2 ^ m.exponent ∨ m.exponent = -1074 := by
      refine or_iff_not_imp_right.mpr fun coarse => ?_
      have enough : 2 ^ 52 ≤ m.units := full.resolve_right coarse
      rcases enough.eq_or_lt with equal | more
      · have wide := narrow.mpr ⟨equal.symm, coarse⟩
        have : (m.units : ℝ) = 2 ^ 52 := by exact_mod_cast equal.symm
        rw [← this]
        exact not_lt.mp fun less => inner ⟨wide, less⟩
      · have : (2 : ℝ) ^ 52 + 1 ≤ m.units := by exact_mod_cast more
        linarith
    have grid : gridExponent x = m.exponent :=
      gridExponent_eq positive least full' (by linarith)
    have whole : roundEven (x / 2 ^ m.exponent) = m.units := by
      refine roundEven_eq ?_ ?_ fun odd => ?_
      · push_cast
        linarith
      · push_cast
        exact below
      · obtain ⟨above, below⟩ := holds.strict fun even => odd (by exact_mod_cast even)
        push_cast
        exact ⟨by linarith, below⟩
    unfold rounded value
    rw [grid, whole]
    push_cast
    rfl

theorem Legal.rounded_of_readsBack (legal : m.Legal) (reads : m.readsBack place n = true) :
    rounded (n * 10 ^ place) = m.value :=
  legal.rounded_eq ((readsBack_iff legal.positive).mp reads)

end Magnitude

end

end Easing.Decimal
