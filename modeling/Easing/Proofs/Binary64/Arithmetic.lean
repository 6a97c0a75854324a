/-
**The arithmetic of doubles on the extended line.**

An operation on reals that doubles hold is the exact one followed by `nearest`.

* `level_add_of_holds`, `level_mul_of_holds`, `level_div_of_holds`: sums, products, quotients.
* `place_mul`, `place_div`: the same of mantissas that no double holds.
* `level_toFloat`: machine integers.
-/
import Easing.Proofs.Binary64.Order

namespace Easing.Binary64

open Float.Model.UnpackedFloat
open Float.Model (UnpackedFloat)

noncomputable section

/-! ### Rounding the exact results -/

/-- Moving to a smaller exponent keeps the value. -/
theorem shiftLeft_value (mantissa : ℕ) {exponent target : ℤ} (le : target ≤ exponent) :
    ((mantissa <<< (exponent - target).toNat : ℕ) : ℝ) * 2 ^ target = mantissa * 2 ^ exponent := by
  have shift : exponent = ((exponent - target).toNat : ℤ) + target := by omega
  rw [Nat.shiftLeft_eq]
  conv_rhs => rw [shift, zpow_add₀ (by norm_num), zpow_natCast]
  push_cast
  ring

/-- Rounding a float whose exponent is fine enough. -/
theorem roundWithAccuracy_exact (sign : Sign) {mantissa : ℕ} {exponent : ℤ} {x : ℝ}
    (positive : 0 < x) (value : mantissa * 2 ^ exponent = x) (fine : exponent ≤ gridExponent x) :
    StandsFor sign (rounded x) (roundWithAccuracy .binary64 sign mantissa exponent .exact) := by
  refine roundWithAccuracy_rounded sign positive ?_ fine
  rw [← value, mul_div_cancel_right₀ _ (by positivity)]
  exact Describes.exact mantissa

/-- Rounding a float of any exponent. -/
theorem round_standsFor (sign : Sign) {mantissa : ℕ} (exponent : ℤ) (positive : 0 < mantissa) :
    StandsFor sign (rounded (mantissa * 2 ^ exponent))
      (UnpackedFloat.round .binary64 sign mantissa exponent) := by
  have target := targetExponent_of_floor positive (floor_units mantissa exponent)
  have above : (0 : ℝ) < mantissa * 2 ^ exponent := by positivity
  generalize isGrid : gridExponent (mantissa * 2 ^ exponent) = grid at target
  have value := shiftLeft_value mantissa (min_le_left exponent grid)
  have steps : decreaseExponent mantissa exponent grid =
      (mantissa <<< (exponent - min exponent grid).toNat, min exponent grid) := by
    have same : (exponent - min exponent grid).toNat = (exponent - grid).toNat := by omega
    rw [decreaseExponent, same, Prod.mk.injEq]
    exact ⟨rfl, by omega⟩
  unfold UnpackedFloat.round
  rw [target]
  simp only [steps]
  exact roundWithAccuracy_exact sign above value (by rw [isGrid]; exact min_le_right _ _)

/-- A whole number of units is rounded to the place nearest to its value. -/
theorem place_normalize (mantissa exponent : ℤ) (zeroSign : Sign) :
    place (Float.Model.pack (UnpackedFloat.normalize .binary64 mantissa exponent zeroSign)).unpack =
      nearest (mantissa * 2 ^ exponent) := by
  unfold UnpackedFloat.normalize
  rcases lt_trichotomy mantissa 0 with negative | rfl | positive
  · have value : (mantissa : ℝ) = -((-mantissa).toNat : ℝ) := by
      have : mantissa = -((-mantissa).toNat : ℤ) := by omega
      exact_mod_cast this
    rw [compare_lt_iff_lt.mpr negative, value, neg_mul]
    exact place_pack_of_standsFor .negative (by positivity)
      (round_standsFor .negative exponent (by omega))
  · rw [compare_eq_iff_eq.mpr rfl, Int.cast_zero, zero_mul, nearest_zero]
    exact congrArg place (unpack_pack (u := .zero zeroSign) trivial)
  · have value : (mantissa : ℝ) = (mantissa.toNat : ℝ) := by
      have : mantissa = (mantissa.toNat : ℤ) := by omega
      exact_mod_cast this
    rw [compare_gt_iff_gt.mpr positive, value]
    exact place_pack_of_standsFor .positive (by positivity)
      (round_standsFor .positive exponent (by omega))

/-! ### Sums and differences -/

/-- Packing what a double unpacks to. -/
theorem place_pack_unpacked {a : Float} {x : ℝ} (holds : Holds (unpacked a) x) :
    place (Float.Model.pack (unpacked a)).unpack = nearest x := by
  rw [unpack_pack (regular_unpacked a), saturate_unpacked, place_of_holds holds,
    nearest_of_holds holds]

theorem signed_apply (sign : Sign) (mantissa : ℕ) :
    ((sign.apply mantissa : ℤ) : ℝ) = signed sign mantissa := by
  cases sign <;> simp [Sign.apply, signed]

theorem signed_mul (sign : Sign) (x y : ℝ) : signed sign x * y = signed sign (x * y) := by
  cases sign <;> simp [signed]

theorem level_add_of_holds {a b : Float} {x y : ℝ} (first : Holds (unpacked a) x)
    (second : Holds (unpacked b) y) : level (a + b) = nearest (x + y) := by
  have kept := place_pack_unpacked first
  have kept' := place_pack_unpacked second
  show place (Float.Model.pack (UnpackedFloat.add .binary64 (unpacked a) (unpacked b))).unpack = _
  generalize unpacked a = u at first kept ⊢
  generalize unpacked b = v at second kept' ⊢
  cases u with
  | notANumber => exact first.elim
  | infinity sign => exact first.elim
  | zero sign =>
    rw [show x = 0 from first, zero_add]
    cases v with
    | notANumber => exact second.elim
    | infinity sign' => exact second.elim
    | zero sign' =>
      rw [show y = 0 from second, nearest_zero]
      cases sign <;> cases sign' <;> exact congrArg place (unpack_pack (u := .zero _) trivial)
    | finite sign' m' e' positive' => exact kept'
  | finite sign m e positive =>
    cases v with
    | notANumber => exact second.elim
    | infinity sign' => exact second.elim
    | zero sign' =>
      rw [show y = 0 from second, add_zero]
      exact kept
    | finite sign' m' e' positive' =>
      refine (place_normalize _ _ _).trans (congrArg nearest ?_)
      rw [show x = _ from first, show y = _ from second]
      rw [Int.cast_add, signed_apply, signed_apply, add_mul, signed_mul, signed_mul,
        shiftLeft_value m (min_le_left e e'), shiftLeft_value m' (min_le_right e e')]

theorem unpacked_neg (a : Float) : unpacked (-a) = (unpacked a).neg := by
  have regular := regular_unpacked a
  have saturated := saturate_unpacked a
  show (Float.Model.pack (unpacked a).neg).unpack = _
  generalize unpacked a = u at regular saturated ⊢
  cases u with
  | notANumber => exact unpack_pack (u := .notANumber) trivial
  | infinity sign => exact unpack_pack (u := .infinity (-sign)) trivial
  | zero sign => exact unpack_pack (u := .zero (-sign)) trivial
  | finite sign m e positive =>
    have small : e ≤ 971 := by
      by_contra great
      simp only [saturate, if_neg great, reduceCtorEq] at saturated
    refine (unpack_pack (u := .finite (-sign) m e positive) regular).trans ?_
    simp only [saturate, if_pos small]
    rfl

/-- A difference is the sum with the opposite. -/
theorem sub_eq_add_neg (a b : Float) : a - b = a + -b := by
  have unpackedEqual : UnpackedFloat.sub .binary64 (unpacked a) (unpacked b) =
      UnpackedFloat.add .binary64 (unpacked a) (unpacked (-b)) := by
    rw [unpacked_neg]
    generalize unpacked a = u
    generalize unpacked b = v
    cases u with
    | finite sign m e positive =>
      cases v with
      | finite sign' m' e' positive' =>
        have opposite (n : ℕ) : (-sign').apply n = -sign'.apply n := by
          cases sign'
          · exact (neg_neg (n : ℤ)).symm
          · rfl
        simp only [UnpackedFloat.sub, UnpackedFloat.add, UnpackedFloat.neg, opposite,
          Int.sub_eq_add_neg]
      | _ => rfl
    | _ => cases v <;> rfl
  exact congrArg (fun u => Float.ofModel (Float.Model.pack u)) unpackedEqual

/-- Doubles are added in either order. -/
theorem add_comm (a b : Float) : a + b = b + a := by
  have unpackedEqual : UnpackedFloat.add .binary64 (unpacked a) (unpacked b) =
      UnpackedFloat.add .binary64 (unpacked b) (unpacked a) := by
    generalize unpacked a = u
    generalize unpacked b = v
    cases u with
    | finite sign m e positive =>
      cases v with
      | finite sign' m' e' positive' =>
        simp only [UnpackedFloat.add, min_comm e e', Int.add_comm]
      | _ => rfl
    | infinity sign =>
      cases v with
      | infinity sign' => cases sign <;> cases sign' <;> rfl
      | _ => rfl
    | zero sign =>
      cases v with
      | zero sign' => cases sign <;> cases sign' <;> rfl
      | _ => rfl
    | notANumber => cases v <;> rfl
  exact congrArg (fun u => Float.ofModel (Float.Model.pack u)) unpackedEqual

/-! ### Products and quotients -/

theorem signed_mul_signed (sign sign' : Sign) (x y : ℝ) :
    signed (sign * sign') (x * y) = signed sign x * signed sign' y := by
  cases sign <;> cases sign'
  · exact (neg_mul_neg x y).symm
  · exact (neg_mul x y).symm
  · exact (mul_neg x y).symm
  · rfl

theorem signed_div_signed (sign sign' : Sign) (x y : ℝ) :
    signed (sign / sign') (x / y) = signed sign x / signed sign' y := by
  cases sign <;> cases sign'
  · exact (neg_div_neg_eq x y).symm
  · exact (neg_div y x).symm
  · exact (div_neg x).symm
  · rfl

theorem product_value (m m' : ℕ) (e e' : ℤ) :
    (m : ℝ) * 2 ^ e * (m' * 2 ^ e') = (m * m' : ℕ) * 2 ^ (e + e') := by
  rw [zpow_add₀ (by norm_num)]
  push_cast
  ring

/-- The grid of a product, told from the digits of the product of the mantissas. -/
theorem gridExponent_product {m m' : ℕ} (e e' : ℤ) (positive : 0 < m) (positive' : 0 < m') :
    gridExponent ((m : ℝ) * 2 ^ e * (m' * 2 ^ e')) =
      max ((m * m').log2 + (e + e') - 52) (-1074) := by
  have log := log_of_floor (Nat.mul_pos positive positive') (floor_units (m * m') (e + e'))
  rw [product_value, gridExponent, log]

/-- A product of mantissas with enough digits is rounded to the place nearest to its value. -/
theorem place_mul (sign sign' : Sign) {m m' : ℕ} {e e' : ℤ} (positive : 0 < m) (positive' : 0 < m')
    (fine : e + e' ≤ gridExponent ((m : ℝ) * 2 ^ e * (m' * 2 ^ e'))) :
    place (Float.Model.pack (UnpackedFloat.mul .binary64 (.finite sign m e positive)
        (.finite sign' m' e' positive'))).unpack =
      nearest (signed sign (m * 2 ^ e) * signed sign' (m' * 2 ^ e')) := by
  rw [product_value] at fine
  rw [← signed_mul_signed, product_value]
  exact place_pack_of_standsFor (sign * sign') (by positivity)
    (roundWithAccuracy_exact (sign * sign') (by positivity) rfl fine)

theorem level_mul_of_holds {a b : Float} {x y : ℝ} (first : Holds (unpacked a) x)
    (second : Holds (unpacked b) y) : level (a * b) = nearest (x * y) := by
  have regular := regular_unpacked a
  have regular' := regular_unpacked b
  show place (Float.Model.pack (UnpackedFloat.mul .binary64 (unpacked a) (unpacked b))).unpack = _
  generalize unpacked a = u at first regular ⊢
  generalize unpacked b = v at second regular' ⊢
  cases u with
  | notANumber => exact first.elim
  | infinity sign => exact first.elim
  | zero sign =>
    rw [show x = 0 from first, zero_mul, nearest_zero]
    cases v with
    | notANumber => exact second.elim
    | infinity sign' => exact second.elim
    | zero sign' => exact congrArg place (unpack_pack (u := .zero _) trivial)
    | finite sign' m' e' positive' => exact congrArg place (unpack_pack (u := .zero _) trivial)
  | finite sign m e positive =>
    cases v with
    | notANumber => exact second.elim
    | infinity sign' => exact second.elim
    | zero sign' =>
      rw [show y = 0 from second, mul_zero, nearest_zero]
      exact congrArg place (unpack_pack (u := .zero _) trivial)
    | finite sign' m' e' positive' =>
      -- the product of two full mantissas, or of one, has more digits than a double keeps
      have fine : e + e' ≤ gridExponent ((m : ℝ) * 2 ^ e * (m' * 2 ^ e')) := by
        rw [gridExponent_product e e' positive positive']
        rcases regular.full with full | least
        · have : 52 ≤ (m * m').log2 := (Nat.le_log2 (by positivity)).mpr (by nlinarith)
          omega
        · rcases regular'.full with full | least'
          · have : 52 ≤ (m * m').log2 := (Nat.le_log2 (by positivity)).mpr (by nlinarith)
            omega
          · omega
      rw [show x = _ from first, show y = _ from second]
      exact place_mul sign sign' positive positive' fine

/-- The logarithm of a quotient. -/
theorem log_div_le {x y : ℝ} (above : 0 < x) (above' : 0 < y) :
    Int.log 2 x - Int.log 2 y - 1 ≤ Int.log 2 (x / y) := by
  refine (Int.zpow_le_iff_le_log (by norm_num) (by positivity)).mp ?_
  have lower := two_zpow_log_le above
  have upper := (lt_two_zpow_log y).le
  push_cast
  rw [le_div_iff₀ above']
  calc (2 : ℝ) ^ (Int.log 2 x - Int.log 2 y - 1) * y
      ≤ 2 ^ (Int.log 2 x - Int.log 2 y - 1) * 2 ^ (Int.log 2 y + 1) :=
        mul_le_mul_of_nonneg_left upper (by positivity)
    _ = 2 ^ Int.log 2 x := by
        rw [← zpow_add₀ (by norm_num)]
        congr 1
        ring
    _ ≤ x := lower

/-- A quotient is rounded to the place nearest to its value. -/
theorem place_div (sign sign' : Sign) {m m' : ℕ} (e e' : ℤ) (positive : 0 < m)
    (positive' : 0 < m') :
    place (Float.Model.pack (UnpackedFloat.div .binary64 (.finite sign m e positive)
        (.finite sign' m' e' positive'))).unpack =
      nearest (signed sign (m * 2 ^ e) / signed sign' (m' * 2 ^ e')) := by
  have above : (0 : ℝ) < m * 2 ^ e := by positivity
  have above' : (0 : ℝ) < m' * 2 ^ e' := by positivity
  have fine : Float.Model.Format.binary64.targetExponent
      (Float.Model.totalExponent m e - Float.Model.totalExponent m' e') ≤
        gridExponent ((m : ℝ) * 2 ^ e / (m' * 2 ^ e')) := by
    have quotient := log_div_le above above'
    rw [log_of_floor positive (floor_units m e),
      log_of_floor positive' (floor_units m' e')] at quotient
    show max ((m.log2 : ℤ) + 1 + e - ((m'.log2 : ℤ) + 1 + e') - 53) (-1074) ≤ _
    unfold gridExponent
    omega
  rw [← signed_div_signed]
  refine place_pack_of_standsFor (sign / sign') (by positivity) ?_
  generalize isTarget : min (e - e') (Float.Model.Format.binary64.targetExponent
      (Float.Model.totalExponent m e - Float.Model.totalExponent m' e')) = target
  have core : divCore .binary64 m e m' e' =
      (m <<< (e - e' - target).toNat / m', target,
        accuracyOfFraction (m <<< (e - e' - target).toNat % m') m') := by
    rw [divCore, isTarget]
  have value := shiftLeft_value m (show target ≤ e - e' by omega)
  have units : (m : ℝ) * 2 ^ e / (m' * 2 ^ e') / 2 ^ target =
      (m <<< (e - e' - target).toNat : ℕ) / m' := by
    rw [zpow_sub₀ (by norm_num)] at value
    field_simp at value ⊢
    exact value.symm
  simp only [UnpackedFloat.div, core]
  refine roundWithAccuracy_rounded (sign / sign') (by positivity) ?_ (by omega)
  rw [units]
  exact Describes.quotient _ positive'

theorem level_div_of_holds {a b : Float} {x y : ℝ} (first : Holds (unpacked a) x)
    (second : Holds (unpacked b) y) (nonzero : y ≠ 0) : level (a / b) = nearest (x / y) := by
  show place (Float.Model.pack (UnpackedFloat.div .binary64 (unpacked a) (unpacked b))).unpack = _
  generalize unpacked a = u at first ⊢
  generalize unpacked b = v at second ⊢
  cases v with
  | notANumber => exact second.elim
  | infinity sign' => exact second.elim
  | zero sign' => exact absurd second nonzero
  | finite sign' m' e' positive' =>
    cases u with
    | notANumber => exact first.elim
    | infinity sign => exact first.elim
    | zero sign =>
      rw [show x = 0 from first, zero_div, nearest_zero]
      exact congrArg place (unpack_pack (u := .zero _) trivial)
    | finite sign m e positive =>
      rw [show x = _ from first, show y = _ from second]
      exact place_div sign sign' e e' positive positive'

/-! ### Natural numbers -/

/-- A double at a real place holds that real. -/
theorem holds_of_level {a : Float} {x : ℝ} (real : level a = x) : Holds (unpacked a) x := by
  unfold level at real
  rcases kinds (unpacked a) with kind | kind | kind | ⟨y, holds⟩
  · rw [kind] at real
    exact absurd real (EReal.bot_ne_coe x)
  · rw [kind] at real
    exact absurd real (EReal.top_ne_coe x)
  · rw [kind] at real
    exact absurd real (EReal.bot_ne_coe x)
  · rw [place_of_holds holds, EReal.coe_eq_coe_iff] at real
    rwa [← real]

/-- Whole numbers with few digits are doubles. -/
theorem nearest_natCast {n : ℕ} (small : n < 2 ^ 53) : nearest n = n := by
  rcases Nat.eq_zero_or_pos n with rfl | positive
  · rw [Nat.cast_zero, nearest_zero, Nat.cast_zero]
  have real : (n : ℝ) = n * 2 ^ (0 : ℤ) := by rw [zpow_zero, mul_one]
  have floor : ⌊(n : ℝ) / 2 ^ (0 : ℤ)⌋ = n := by rw [zpow_zero, div_one, Int.floor_natCast]
  have grid : gridExponent n ≤ 0 := by
    have : n.log2 < 53 := (Nat.log2_lt positive.ne').mpr small
    rw [gridExponent, log_of_floor positive floor]
    omega
  have units : (n : ℝ) / 2 ^ gridExponent n = ((n * 2 ^ (-gridExponent n).toNat : ℤ) : ℝ) := by
    have shift : -gridExponent n = ((-gridExponent n).toNat : ℤ) := by omega
    rw [div_eq_mul_inv, ← zpow_neg, shift, zpow_natCast]
    push_cast
    rfl
  have whole : rounded n = n := by
    rw [rounded, units, roundEven_intCast, ← units, div_mul_cancel₀ _ (by positivity)]
  have limit : (n : ℝ) < 2 ^ (1024 : ℤ) := by
    calc (n : ℝ) < 2 ^ (53 : ℤ) := by exact_mod_cast small
      _ ≤ 2 ^ (1024 : ℤ) := zpow_le_zpow_right₀ (by norm_num) (by norm_num)
  rw [nearest_of_nonneg (by positivity), whole, clip, if_pos limit]
  rfl

theorem level_toFloat (n : UInt64) : level n.toFloat = nearest n.toNat := by
  refine (place_normalize n.toNat 0 .positive).trans (congrArg nearest ?_)
  rw [zpow_zero, mul_one, Int.cast_natCast]

end

end Easing.Binary64
