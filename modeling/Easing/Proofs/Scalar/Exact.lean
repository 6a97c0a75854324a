/-
**Real numbers as scalars: the exact reading.**

Over the reals every operation is the one of mathematics: nothing is rounded, and no number is
infinite or a NaN. What a definition of the library is meant to compute is its value here.

* `Scalar.zero_real`, `Scalar.one_real`: the numerals of the library are those of the reals.
* `remap_real`: a linear map has its usual formula where the first interval has a width.
* `Cubic.value_real`: the coordinate of a unit cubic as a polynomial.
* `Curve.defect?_real`: the checks for finite values find nothing.
-/
import Mathlib
import Easing.Curve.Build
import Easing.Proofs.Binary64.Encoding

namespace Easing

noncomputable instance : Scalar ℝ where
  toBEq := instBEqOfDecidableEq
  decideLt := Real.decidableLT
  decideLe := Real.decidableLE
  sqrt := Real.sqrt
  abs := fun a => |a|
  round := fun a => if a < 0 then -⌊-a + 1 / 2⌋ else ⌊a + 1 / 2⌋
  floorNat := Nat.floor
  nan := 0
  isNaN := fun _ => false
  isInfinite := fun _ => false
  same := fun a b => a == b

namespace Scalar

-- The numerals from two on need no lemma: both readings are the same cast.
@[simp] theorem zero_real : @OfNat.ofNat ℝ 0 Scalar.instOfNat = 0 := Nat.cast_zero

@[simp] theorem one_real : @OfNat.ofNat ℝ 1 Scalar.instOfNat = 1 := Nat.cast_one

end Scalar

/-! ### Linear maps -/

theorem remap_real {value inLow inHigh outLow outHigh : ℝ} (wide : inLow ≠ inHigh) :
    remap value inLow inHigh outLow outHigh =
      (value - inLow) * (outHigh - outLow) / (inHigh - inLow) + outLow := by
  have span : ¬(inHigh - inLow == @OfNat.ofNat ℝ 0 Scalar.instOfNat) = true := by
    rw [Scalar.zero_real, beq_iff_eq]
    exact sub_ne_zero.mpr wide.symm
  unfold remap
  rw [if_neg span]

/-- From the unit interval into another one. -/
theorem remap_unit (value low high : ℝ) : remap value 0 1 low high = low + (high - low) * value := by
  rw [remap_real zero_ne_one]
  ring

/-! ### Unit cubics -/

namespace Cubic

theorem value_real (t a1 a2 : ℝ) :
    value t a1 a2 = ((1 - 3 * a2 + 3 * a1) * t + (3 * a2 - 6 * a1)) * t ^ 2 + 3 * a1 * t := by
  unfold value coeffA coeffB coeffC
  rw [Scalar.one_real]
  ring

@[simp] theorem value_zero (a1 a2 : ℝ) : value 0 a1 a2 = 0 := by
  rw [value_real]
  ring

@[simp] theorem value_one (a1 a2 : ℝ) : value 1 a1 a2 = 1 := by
  rw [value_real]
  ring

theorem continuous_value (a1 a2 : ℝ) : Continuous fun t => value t a1 a2 := by
  simp only [value_real]
  fun_prop

/-- Every value of the unit interval is reached. -/
theorem exists_value_eq {a : ℝ} (a1 a2 : ℝ) (low : 0 ≤ a) (high : a ≤ 1) :
    ∃ t, value t a1 a2 = a := by
  have between := intermediate_value_Icc zero_le_one (continuous_value a1 a2).continuousOn
  rw [value_zero, value_one] at between
  obtain ⟨t, -, reached⟩ := between ⟨low, high⟩
  exact ⟨t, reached⟩

end Cubic

/-! ### Lengths and checks -/

theorem Vec.isZero_real (v : Vec ℝ) : v.isZero = true ↔ v.x = 0 ∧ v.y = 0 := by
  have sum : 0 ≤ v.x * v.x + v.y * v.y := add_nonneg (mul_self_nonneg _) (mul_self_nonneg _)
  unfold isZero length
  rw [Scalar.zero_real, beq_iff_eq]
  show √(v.x * v.x + v.y * v.y) = 0 ↔ _
  rw [Real.sqrt_eq_zero sum, mul_self_add_mul_self_eq_zero]

/-- No coefficient and no value of a curve is infinite. -/
theorem Curve.defect?_real (curve : Curve ℝ) : curve.defect? = none := by
  have finite : (curve.branches.find? fun branch => !branch.isFinite) = none := by
    rw [List.find?_eq_none]
    rintro ⟨start, stop, slope | shared⟩ - infinite <;> cases infinite
  unfold defect?
  rw [finite]
  exact List.findSome?_eq_none_iff.mpr fun t _ => rfl

end Easing
