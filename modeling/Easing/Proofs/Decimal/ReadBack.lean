/-
**Decimals are read as the doubles nearest to them.**

A decimal far outside is read without a computation, and rightly so; any other one is converted.
What is written for a double is rounded to it, so it is read as this double.

* `Scaled.level_toFloat`: reading a decimal.
* `readFloat_of_rounded`, `readFloat_zero`: the double that is read, with its sign.
* `Double.infinite_kinds`: what has no digits to read.
-/
import Easing.Decimal.Shortest
import Easing.Proofs.Binary64.Whole
import Easing.Proofs.Decimal.Shortest

namespace Easing.Decimal

open Easing.Binary64

noncomputable section

/-! ### The nearest double -/

variable {d : Scaled}

theorem Scaled.value_nonneg (d : Scaled) : 0 ≤ d.value := by
  unfold value
  positivity

/-- The leading digit of a decimal bounds it. -/
theorem Scaled.pow_leading_le (positive : 0 < d.digits) :
    (10 : ℝ) ^ (d.place + (digitCount d.digits : ℤ) - 1) ≤ d.value := by
  have count := digitCount_pos positive
  have whole : (10 : ℝ) ^ (digitCount d.digits - 1) ≤ d.digits := by
    exact_mod_cast pow_digitCount_le positive
  have exponent : d.place + (digitCount d.digits : ℤ) - 1 =
      ((digitCount d.digits - 1 : ℕ) : ℤ) + d.place := by omega
  rw [exponent, zpow_add₀ (by norm_num), zpow_natCast]
  exact mul_le_mul_of_nonneg_right whole (by positivity)

theorem Scaled.value_lt_pow_leading (d : Scaled) :
    d.value < (10 : ℝ) ^ (d.place + (digitCount d.digits : ℤ)) := by
  have whole : (d.digits : ℝ) < 10 ^ digitCount d.digits := by
    exact_mod_cast lt_pow_digitCount d.digits
  rw [Int.add_comm, zpow_add₀ (by norm_num), zpow_natCast]
  exact mul_lt_mul_of_pos_right whole (by positivity)

theorem level_infinity : level (1.0 / 0.0) = ⊤ := by
  have bits : (1.0 / 0.0 : Float).toBits = 0x7FF0000000000000 := by decide +kernel
  have kind : Double.ofFloat (1.0 / 0.0) = .infinite false := by
    rw [Double.ofFloat, bits]
    rfl
  have agree := unpacks_ofFloat (1.0 / 0.0)
  rw [kind] at agree
  rw [level, show unpacked (1.0 / 0.0) = .infinity .positive from agree]
  rfl

theorem level_zeroPointZero : level 0.0 = 0 := by
  refine (level_ofScientific 0 true 1).trans ?_
  rw [Nat.cast_zero, zero_mul, nearest_zero]

/-- **A decimal is read as the nearest double.** -/
theorem Scaled.level_toFloat (d : Scaled) : level d.toFloat = nearest d.value := by
  unfold toFloat
  dsimp only
  rcases Nat.eq_zero_or_pos d.digits with zero | positive
  · rw [if_pos (.inl zero), level_zeroPointZero, value, zero, Nat.cast_zero, zero_mul,
      nearest_zero]
  · split_ifs with low high
    · have least : d.place + (digitCount d.digits : ℤ) ≤ -400 := by
        have below := low.resolve_left positive.ne'
        unfold leastLeading at below
        omega
      have power : (10 : ℝ) ^ (-400 : ℤ) ≤ 2 ^ (-1075 : ℤ) := by
        have natural : 2 ^ 1075 ≤ 10 ^ 400 := by decide +kernel
        rw [zpow_neg, zpow_neg]
        exact inv_anti₀ (by positivity) (by exact_mod_cast natural)
      rw [level_zeroPointZero, nearest_of_small d.value_nonneg]
      exact d.value_lt_pow_leading.le.trans
        ((zpow_le_zpow_right₀ (by norm_num) least).trans power)
    · have power : (2 : ℝ) ^ (1024 : ℤ) ≤ 10 ^ (400 : ℤ) := by
        have natural : 2 ^ 1024 ≤ 10 ^ 400 := by decide +kernel
        exact_mod_cast natural
      unfold greatestLeading at high
      rw [level_infinity, nearest_of_great]
      exact power.trans ((zpow_le_zpow_right₀ (by norm_num) high.le).trans
        (Scaled.pow_leading_le positive))
    · rw [level_ofScientific, value]
      have place : (if (decide (d.place < 0)) = true then -(d.place.natAbs : ℤ)
          else d.place.natAbs) = d.place := by
        simp only [decide_eq_true_eq]
        split_ifs <;> omega
      rw [place]

/-! ### Reading back -/

theorem Double.holds_of_finite {a : Float} {negative : Bool} {m : Magnitude}
    (kind : ofFloat a = .finite negative m) :
    Holds (unpacked a) (signed (signOfNegative negative) m.value) := by
  have agree := unpacks_ofFloat a
  rw [kind] at agree
  obtain ⟨_, unpacks⟩ := agree
  rw [unpacks]
  rfl

/-- A decimal that is rounded to the magnitude of a double is read as this double. -/
theorem readFloat_of_rounded {a : Float} {negative : Bool} {m : Magnitude}
    (kind : Double.ofFloat a = .finite negative m) (near : rounded d.value = m.value) :
    readFloat negative d = a := by
  have legal := Magnitude.legal_ofFloat kind
  have above := Magnitude.value_pos legal.positive
  have holds := Double.holds_of_finite kind
  have itself : nearest m.value = m.value := by
    have kept := nearest_of_holds holds
    cases negative with
    | false => exact kept
    | true =>
      change nearest (-m.value) = ((-m.value : ℝ) : EReal) at kept
      rwa [nearest_neg, EReal.coe_neg, neg_inj] at kept
  have read : level d.toFloat = m.value := by
    have kept : rounded m.value = m.value := rounded_stored legal.stored
    rw [d.level_toFloat, nearest_of_nonneg d.value_nonneg, near, ← itself, nearest_of_nonneg above.le,
      kept]
  unfold readFloat
  cases negative with
  | false => exact eq_of_level above.ne' read (level_of_holds holds)
  | true =>
    exact eq_of_level (neg_ne_zero.mpr above.ne')
      (level_of_holds (holds_neg (holds_of_level read))) (level_of_holds holds)

/-- Zero is read with its sign. -/
theorem readFloat_zero {a : Float} {negative : Bool} (kind : Double.ofFloat a = .zero negative)
    (zero : d.digits = 0) : readFloat negative d = a := by
  have isZero : d.toFloat = 0.0 := if_pos (.inl zero)
  have bits : (0.0 : Float).toBits = 0 ∧ (-0.0 : Float).toBits = 0x8000000000000000 := by
    decide +kernel
  unfold readFloat
  rw [isZero]
  refine (Double.ofFloat_injective (by rw [kind]; nofun) ?_).symm
  rw [kind]
  cases negative with
  | false =>
    rw [if_neg Bool.false_ne_true, Double.ofFloat, bits.1]
    rfl
  | true =>
    rw [if_pos rfl, Double.ofFloat, bits.2]
    rfl

/-- A double that is not finite has no digits. -/
theorem Double.infinite_kinds {a : Float} (infinite : Scalar.isFinite a = false) :
    ofFloat a = .nan ∨ ∃ negative, ofFloat a = .infinite negative := by
  have agree := unpacks_ofFloat a
  cases kind : ofFloat a with
  | nan => exact .inl rfl
  | infinite negative => exact .inr ⟨negative, rfl⟩
  | zero negative =>
    rw [kind] at agree
    have holds : Holds (unpacked a) 0 := by
      rw [show unpacked a = .zero _ from agree]
      rfl
    rw [isFinite_of_holds holds] at infinite
    cases infinite
  | finite negative m =>
    rw [isFinite_of_holds (holds_of_finite kind)] at infinite
    cases infinite

end

end Easing.Decimal
