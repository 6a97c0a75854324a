/-
**Decimals converted to doubles.**

A decimal with few digits and a small power of ten is converted by one operation on two doubles
that hold both of them. Any other one is converted by one operation on mantissas of any length or,
far outside, by none. Each way leads to the double nearest to the decimal.

* `nearest_of_great`, `nearest_of_small`: reals beyond all doubles, and reals too small for any.
* `holds_powerOfTen`: the powers of ten that doubles hold.
* `place_ofScientific`: the operation on mantissas.
* `level_ofScientific`: the conversion.
-/
import Easing.Proofs.Binary64.Arithmetic

namespace Easing.Binary64

open Float.Model.UnpackedFloat
open Float.Model (UnpackedFloat)

noncomputable section

/-! ### Far outside -/

/-- A real beyond all doubles becomes infinite. -/
theorem nearest_of_great {x : ℝ} (great : 2 ^ (1024 : ℤ) ≤ x) : nearest x = ⊤ := by
  have limit : ((2 ^ 52 : ℕ) : ℝ) * 2 ^ (972 : ℤ) = 2 ^ (1024 : ℤ) := by
    rw [show (1024 : ℤ) = 52 + 972 by norm_num, zpow_add₀ (by norm_num)]
    norm_num
  have kept : rounded (2 ^ (1024 : ℤ)) = 2 ^ (1024 : ℤ) := by
    rw [← limit]
    exact rounded_stored ⟨by norm_num, by norm_num, Or.inl le_rfl⟩
  have above : 2 ^ (1024 : ℤ) ≤ rounded x := kept.ge.trans (rounded_mono (by positivity) great)
  rw [nearest_of_nonneg ((by positivity : (0 : ℝ) ≤ 2 ^ (1024 : ℤ)).trans great), clip,
    if_neg above.not_gt]

/-- A real that is at most half the least double becomes zero. -/
theorem nearest_of_small {x : ℝ} (nonneg : 0 ≤ x) (small : x ≤ 2 ^ (-1075 : ℤ)) :
    nearest x = 0 := by
  have log : Int.log 2 ((2 : ℝ) ^ (-1075 : ℤ)) = -1075 :=
    log_eq le_rfl (zpow_lt_zpow_right₀ (by norm_num) (by norm_num))
  have grid : gridExponent (2 ^ (-1075 : ℤ)) = -1074 := by
    rw [gridExponent, log]
    norm_num
  have half : (2 : ℝ) ^ (-1075 : ℤ) / 2 ^ (-1074 : ℤ) = 1 / 2 := by
    rw [← zpow_sub₀ (by norm_num)]
    norm_num
  have even : roundEven (1 / 2) = 0 := by
    have floor : ⌊(1 / 2 : ℝ)⌋ = 0 := by norm_num
    have fract : Int.fract (1 / 2 : ℝ) = 1 / 2 := by
      rw [Int.fract, floor, Int.cast_zero, sub_zero]
    unfold roundEven
    rw [fract, if_neg (lt_irrefl _), if_neg (lt_irrefl _), floor]
    rfl
  have last : rounded (2 ^ (-1075 : ℤ)) = 0 := by
    rw [rounded, grid, half, even, Int.cast_zero, zero_mul]
  have zero : rounded x = 0 :=
    le_antisymm ((rounded_mono nonneg small).trans last.le) (rounded_nonneg nonneg)
  rw [nearest_of_nonneg nonneg, zero, clip_zero]

/-! ### Mantissas of any length -/

/-- Powers of ten grow faster than powers of two. -/
theorem two_zpow_le_ten_zpow {e : ℤ} (nonneg : 0 ≤ e) : (2 : ℝ) ^ e ≤ 10 ^ e :=
  zpow_le_zpow_left₀ nonneg (by norm_num) (by norm_num)

theorem ten_zpow_le_two_zpow {e : ℤ} (nonpos : e ≤ 0) : (10 : ℝ) ^ e ≤ 2 ^ e := by
  have inverse := two_zpow_le_ten_zpow (neg_nonneg.mpr nonpos)
  rw [zpow_neg, zpow_neg] at inverse
  exact (inv_le_inv₀ (by positivity) (by positivity)).mp inverse

/-- **A decimal is converted to the place nearest to it.** -/
theorem place_ofScientific (m : ℕ) (e : ℤ) :
    place (Float.Model.pack (UnpackedFloat.ofScientific .binary64 m e)).unpack =
      nearest (m * 10 ^ e) := by
  unfold UnpackedFloat.ofScientific
  split_ifs with zero great small right
  · rw [zero, Nat.cast_zero, zero_mul, nearest_zero]
    exact congrArg place (unpack_pack (u := .zero _) trivial)
  · have far : 2 ^ 11 < e := great
    have one : (1 : ℝ) ≤ m := by exact_mod_cast Nat.pos_of_ne_zero zero
    rw [nearest_of_great]
    · exact congrArg place (unpack_pack (u := .infinity _) trivial)
    · calc (2 : ℝ) ^ (1024 : ℤ) ≤ 2 ^ e := zpow_le_zpow_right₀ (by norm_num) (by omega)
        _ ≤ 10 ^ e := two_zpow_le_ten_zpow (by omega)
        _ ≤ m * 10 ^ e := le_mul_of_one_le_left (by positivity) one
  · have far : e < -(2 ^ 11 + (m.log2 : ℤ)) := small
    have digits : (m : ℝ) ≤ 2 ^ ((m.log2 : ℤ) + 1) := by
      exact_mod_cast Nat.lt_log2_self.le
    rw [nearest_of_small (by positivity)]
    · exact congrArg place (unpack_pack (u := .zero _) trivial)
    · calc (m : ℝ) * 10 ^ e ≤ 2 ^ ((m.log2 : ℤ) + 1) * 2 ^ e :=
            mul_le_mul digits (ten_zpow_le_two_zpow (by omega)) (by positivity) (by positivity)
        _ = 2 ^ ((m.log2 : ℤ) + 1 + e) := (zpow_add₀ (by norm_num) _ _).symm
        _ ≤ 2 ^ (-1075 : ℤ) := zpow_le_zpow_right₀ (by norm_num) (by omega)
  · have positive : 0 < m <<< 53 := by
      rw [Nat.shiftLeft_eq]
      positivity
    have power : 0 < 10 ^ e.toNat := by positivity
    have fine : (-53 + 0 : ℤ) ≤
        gridExponent (((m <<< 53 : ℕ) : ℝ) * 2 ^ (-53 : ℤ) * ((10 ^ e.toNat : ℕ) * 2 ^ (0 : ℤ))) := by
      have long : 53 ≤ (m <<< 53 * 10 ^ e.toNat).log2 := by
        refine (Nat.le_log2 (Nat.mul_pos positive power).ne').mpr ?_
        rw [Nat.shiftLeft_eq]
        exact (Nat.le_mul_of_pos_left _ (Nat.pos_of_ne_zero zero)).trans
          (Nat.le_mul_of_pos_right _ power)
      rw [gridExponent_product _ _ positive power]
      omega
    refine (place_mul .positive .positive positive power fine).trans (congrArg nearest ?_)
    have shifted : ((m <<< 53 : ℕ) : ℝ) * 2 ^ (-53 : ℤ) = m := by
      rw [Nat.shiftLeft_eq, Nat.cast_mul, mul_assoc]
      norm_num
    have isPower : ((10 ^ e.toNat : ℕ) : ℝ) = 10 ^ e := by
      rw [Nat.cast_pow, ← zpow_natCast, Int.toNat_of_nonneg right]
      rfl
    show ((m <<< 53 : ℕ) : ℝ) * 2 ^ (-53 : ℤ) * ((10 ^ e.toNat : ℕ) * 2 ^ (0 : ℤ)) = _
    rw [shifted, isPower, zpow_zero, mul_one]
  · have power : 0 < 10 ^ (-e).toNat := by positivity
    refine (place_div .positive .positive 0 0 (Nat.pos_of_ne_zero zero) power).trans
      (congrArg nearest ?_)
    have isPower : ((10 ^ (-e).toNat : ℕ) : ℝ) = (10 ^ e)⁻¹ := by
      rw [Nat.cast_pow, ← zpow_natCast, Int.toNat_of_nonneg (by omega), zpow_neg]
      rfl
    show (m : ℝ) * 2 ^ (0 : ℤ) / ((10 ^ (-e).toNat : ℕ) * 2 ^ (0 : ℤ)) = _
    rw [isPower, zpow_zero, mul_one, mul_one, div_inv_eq_mul]

/-! ### Powers of ten -/

/-- Whether an unpacked float is the given natural number. -/
def isNat (u : UnpackedFloat) (n : ℕ) : Bool :=
  match u with
  | .finite .positive m e _ => m * 2 ^ e.toNat == n * 2 ^ (-e).toNat
  | _ => false

theorem holds_of_isNat {u : UnpackedFloat} {n : ℕ} (nat : isNat u n = true) : Holds u n := by
  unfold isNat at nat
  split at nat
  case h_2 => cases nat
  case h_1 m e _ =>
    show (n : ℝ) = m * 2 ^ e
    have equal : (m : ℝ) * 2 ^ e.toNat = n * 2 ^ (-e).toNat := by exact_mod_cast beq_iff_eq.mp nat
    have split : (2 : ℝ) ^ e = 2 ^ e.toNat / 2 ^ (-e).toNat := by
      rw [← zpow_natCast, ← zpow_natCast, ← zpow_sub₀ (by norm_num)]
      congr 1
      omega
    rw [split, mul_div_assoc', equal, mul_div_cancel_right₀ _ (by positivity)]

theorem isNat_powersOfTen (place : Fin Float.exactlyRepresentablePowersOfTen.size) :
    isNat (unpacked Float.exactlyRepresentablePowersOfTen[place]) (10 ^ place.val) = true := by
  revert place
  decide +kernel

/-- The table has the powers of ten that doubles hold. -/
theorem holds_powerOfTen {e : ℕ} (inside : e < Float.exactlyRepresentablePowersOfTen.size) :
    Holds (unpacked Float.exactlyRepresentablePowersOfTen[e]) ((10 ^ e : ℕ) : ℝ) :=
  holds_of_isNat (isNat_powersOfTen ⟨e, inside⟩)

/-! ### The conversion -/

/-- **A decimal is converted to the nearest double**, in whichever way it is done. -/
theorem level_ofScientific (m : ℕ) (below : Bool) (e : ℕ) :
    level (Float.ofScientific m below e) =
      nearest (m * 10 ^ (if below then -(e : ℤ) else e)) := by
  unfold Float.ofScientific
  by_cases fast : m < 2 ^ 53 ∧ e ≤ 22
  · obtain ⟨small, inside⟩ := fast
    have converted : level m.toUInt64.toFloat = (m : ℝ) := by
      have kept : m.toUInt64.toNat = m := by
        show m % 2 ^ 64 = m
        exact Nat.mod_eq_of_lt (by omega)
      rw [level_toFloat, kept, nearest_natCast small]
      rfl
    have power := holds_powerOfTen (show e < 23 by omega)
    have above : ((10 ^ e : ℕ) : ℝ) ≠ 0 := by positivity
    rw [dif_pos ⟨small, inside⟩]
    cases below with
    | true =>
      refine (level_div_of_holds (holds_of_level converted) power above).trans ?_
      rw [if_pos rfl, zpow_neg, zpow_natCast, Nat.cast_pow]
      rfl
    | false =>
      refine (level_mul_of_holds (holds_of_level converted) power).trans ?_
      rw [if_neg Bool.false_ne_true, zpow_natCast, Nat.cast_pow]
      rfl
  · rw [dif_neg fast]
    cases below with
    | true => exact (place_ofScientific m (Int.negOfNat e)).trans (by rw [Int.negOfNat_eq]; rfl)
    | false => exact place_ofScientific m e

/-- The conversion of natural numbers rounds. -/
theorem level_ofNat (n : ℕ) : level (Float.ofNat n) = nearest n := by
  refine (level_ofScientific n false 0).trans ?_
  rw [if_neg Bool.false_ne_true, Nat.cast_zero, zpow_zero, mul_one]

end

end Easing.Binary64
