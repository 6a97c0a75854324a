/-
**Distances of doubles are numbers.**

A sum of a number and a finite double may be infinite, but it is a number. A square is not below
zero, nor is a sum of squares, and so the root has a value: between a position that is finite and a
point that is no NaN there is always a distance, an infinite one at worst.

* `isNaN_add`, `isNaN_sub`: a finite double keeps a number a number.
* `isNaN_sqrt`: what is not below zero has a root.
* `isNaN_distance`: the distance of two points.
-/
import Easing.Plane
import Easing.Proofs.Binary64.Whole

namespace Easing.Binary64

open Float.Model.UnpackedFloat
open Float.Model (UnpackedFloat)

noncomputable section

variable {a b : Float} {x : ℝ}

/-! ### Packing and rounding -/

/-- Packing makes no NaN. -/
theorem unpack_pack_ne {u : UnpackedFloat} (number : u ≠ .notANumber) :
    (Float.Model.pack u).unpack ≠ .notANumber := by
  show unpack .binary64 (UnpackedFloat.pack .binary64 u) ≠ .notANumber
  -- only the greatest exponent field is that of NaN, and a finite value never has it
  have fields : ∀ (sign : Sign) (exponent mantissa : ℕ), exponent < 2047 →
      unpack .binary64 (packComponents .binary64 sign (BitVec.ofNat 11 exponent)
        (BitVec.ofNat 52 mantissa)) ≠ .notANumber := by
    intro sign exponent mantissa small
    have dropped : BitVec.ofNat 52 mantissa = BitVec.ofNat 52 (mantissa % 2 ^ 52) := by
      apply BitVec.eq_of_toNat_eq
      rw [BitVec.toNat_ofNat, BitVec.toNat_ofNat, Nat.mod_mod]
    have read := fields_packComponents sign exponent (mantissa % 2 ^ 52) (by omega)
      (Nat.mod_lt _ (by positivity))
    rw [dropped, unpack_eq _ read.1 read.2, if_neg (by omega)]
    split_ifs <;> nofun
  have infinite : ∀ sign : Sign,
      unpack .binary64 (packedInfinity .binary64 sign) ≠ .notANumber := by
    intro sign
    rw [show unpack .binary64 (packedInfinity .binary64 sign) = .infinity sign from
      unpack_pack (u := .infinity sign) trivial]
    nofun
  cases u with
  | notANumber => exact absurd rfl number
  | infinity sign => exact infinite sign
  | zero sign => exact fields sign 0 0 (by omega)
  | finite sign mantissa exponent positive =>
    simp only [UnpackedFloat.pack]
    split_ifs with great normal
    · exact infinite sign
    · refine fields sign _ mantissa ?_
      have limit : ¬2 ^ 11 ≤ _ + 1 := great
      omega
    · exact fields sign 0 mantissa (by omega)

theorem roundWithAccuracy_ne (sign : Sign) (mantissa : ℕ) (exponent : ℤ) (accuracy : Accuracy) :
    roundWithAccuracy .binary64 sign mantissa exponent accuracy ≠ .notANumber := by
  unfold roundWithAccuracy
  dsimp only
  split <;> simp

theorem normalize_ne (mantissa exponent : ℤ) (zeroSign : Sign) :
    UnpackedFloat.normalize .binary64 mantissa exponent zeroSign ≠ .notANumber := by
  unfold UnpackedFloat.normalize
  split
  · exact roundWithAccuracy_ne _ _ _ _
  · simp
  · exact roundWithAccuracy_ne _ _ _ _

/-! ### Sums and differences -/

/-- A finite double keeps a number a number. -/
theorem isNaN_add (number : a.isNaN = false) (holds : Holds (unpacked b) x) :
    (a + b).isNaN = false := by
  rw [number_iff] at number ⊢
  show (Float.Model.pack (UnpackedFloat.add .binary64 (unpacked a) (unpacked b))).unpack ≠ _
  refine unpack_pack_ne ?_
  generalize unpacked a = u at number ⊢
  generalize unpacked b = v at holds ⊢
  cases v with
  | notANumber => exact holds.elim
  | infinity sign => exact holds.elim
  | zero sign =>
    cases u with
    | notANumber => exact absurd rfl number
    | zero sign' => cases sign <;> cases sign' <;> nofun
    | _ => nofun
  | finite sign m e positive =>
    cases u with
    | notANumber => exact absurd rfl number
    | finite sign' m' e' positive' => exact normalize_ne _ _ _
    | _ => nofun

theorem isNaN_sub (number : a.isNaN = false) (holds : Holds (unpacked b) x) :
    (a - b).isNaN = false := by
  rw [sub_eq_add_neg]
  exact isNaN_add number (holds_neg holds)

/-! ### Squares and roots -/

/-- A square is not below zero. -/
theorem level_mul_self_nonneg (number : a.isNaN = false) : 0 ≤ level (a * a) := by
  have infinite : ∀ sign, unpacked a = .infinity sign → 0 ≤ level (a * a) := by
    intro sign kind
    have top : level (a * a) = ⊤ := by
      show place
        (Float.Model.pack (UnpackedFloat.mul .binary64 (unpacked a) (unpacked a))).unpack = _
      rw [kind]
      cases sign <;> exact congrArg place (unpack_pack (u := .infinity .positive) trivial)
    rw [top]
    exact le_top
  rcases kinds (unpacked a) with kind | kind | kind | ⟨y, holds⟩
  · exact absurd kind ((number_iff a).mp number)
  · exact infinite _ kind
  · exact infinite _ kind
  · rw [level_mul_of_holds holds holds]
    exact nearest_nonneg (mul_self_nonneg y)

theorem level_add_nonneg (nonneg : 0 ≤ level a) (nonneg' : 0 ≤ level b) :
    0 ≤ level (a + b) := by
  rcases kinds (unpacked b) with kind | kind | kind | ⟨y, holds⟩
  · rw [level, kind] at nonneg'
    exact absurd nonneg' (not_le.mpr EReal.bot_lt_zero)
  · rw [level_add_top kind, if_neg (EReal.bot_lt_zero.trans_le nonneg).ne']
    exact le_top
  · rw [level, kind] at nonneg'
    exact absurd nonneg' (not_le.mpr EReal.bot_lt_zero)
  · rw [level_of_holds holds] at nonneg'
    have kept := level_add_mono (c := b) (show level (Float.ofNat 0) ≤ level a by rwa [level_zero])
    have zero : Holds (unpacked (Float.ofNat 0)) 0 := holds_of_level level_zero
    rw [level_add_of_holds zero holds, zero_add] at kept
    exact (nearest_nonneg (EReal.coe_nonneg.mp nonneg')).trans kept

/-- What is not below zero has a root. -/
theorem isNaN_sqrt (nonneg : 0 ≤ level a) : a.sqrt.isNaN = false := by
  rw [number_iff]
  show (Float.Model.pack (UnpackedFloat.sqrt .binary64 (unpacked a))).unpack ≠ _
  refine unpack_pack_ne ?_
  unfold level at nonneg
  generalize unpacked a = u at nonneg ⊢
  cases u with
  | notANumber => exact absurd nonneg (not_le.mpr EReal.bot_lt_zero)
  | infinity sign =>
    cases sign with
    | positive => nofun
    | negative => exact absurd nonneg (not_le.mpr EReal.bot_lt_zero)
  | zero sign => nofun
  | finite sign m e positive =>
    cases sign with
    | positive => exact roundWithAccuracy_ne _ _ _ _
    | negative =>
      have below : -((m : ℝ) * 2 ^ e) < 0 := by
        rw [Left.neg_neg_iff]
        positivity
      exact absurd (EReal.coe_nonneg.mp nonneg) below.not_ge

/-- **There is a distance** between a point that is no NaN and a finite position. -/
theorem isNaN_distance {p q : Point Float} (numberX : p.x.isNaN = false)
    (numberY : p.y.isNaN = false) (finiteX : Scalar.isFinite q.x = true)
    (finiteY : Scalar.isFinite q.y = true) : (p.distance q).isNaN = false := by
  obtain ⟨x, holdsX⟩ := holds_of_isFinite finiteX
  obtain ⟨y, holdsY⟩ := holds_of_isFinite finiteY
  exact isNaN_sqrt (level_add_nonneg (level_mul_self_nonneg (isNaN_sub numberX holdsX))
    (level_mul_self_nonneg (isNaN_sub numberY holdsY)))

end

end Easing.Binary64
