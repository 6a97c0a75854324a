/-
**Doubles as fields of bits.**

A finite double is a sign, a whole number of units below `2 ^ 53`, and a power of two for one unit,
no smaller than `2 ^ (-1074)`; below `2 ^ 52` units the power is the smallest one (`Stored`).

* `unpack_eq`: the three fields of a bit pattern, read as quotient and remainder of its number.
* `unpack_pack`: packing what rounding produces loses nothing but what exceeds the greatest
  exponent, which becomes infinite.
* `toBits_injective`: a double is its bit pattern.
-/
import Mathlib
import Easing.Scalar.Binary64

/-! ### Numerals of the reals -/

instance Nat.atLeastTwo_two : Nat.AtLeastTwo 2 := ⟨by decide⟩

instance Nat.atLeastTwo_three : Nat.AtLeastTwo 3 := ⟨by decide⟩

instance Nat.atLeastTwo_ten : Nat.AtLeastTwo 10 := ⟨by decide⟩

namespace Easing.Binary64

open Float.Model.UnpackedFloat
open Float.Model (UnpackedFloat)

/-! ### The fields of a bit pattern -/

section Fields

variable (bits : BitVec 64)

theorem toNat_append {w v : Nat} (x : BitVec w) (y : BitVec v) :
    (x ++ y).toNat = x.toNat * 2 ^ v + y.toNat := by
  rw [BitVec.toNat_append, ← Nat.shiftLeft_add_eq_or_of_lt y.isLt, Nat.shiftLeft_eq]

theorem toNat_unpackMantissa :
    (@unpackMantissa .binary64 bits).toNat = bits.toNat % 2 ^ 52 := by
  simp [unpackMantissa, BitVec.extractLsb_toNat]

theorem toNat_unpackExponent :
    (@unpackExponent .binary64 bits).toNat = bits.toNat / 2 ^ 52 % 2 ^ 11 := by
  simp [unpackExponent, BitVec.extractLsb_toNat, Nat.shiftRight_eq_div_pow]

theorem toNat_unpackSign :
    (@unpackSign .binary64 bits).toNat = bits.toNat / 2 ^ 63 := by
  have := bits.isLt
  simp only [unpackSign, BitVec.extractLsb_toNat, Nat.shiftRight_eq_div_pow, BitVec.toNat_cast]
  omega

theorem toNat_packComponents (sign : Sign) (exponent : BitVec 11) (mantissa : BitVec 52) :
    (packComponents .binary64 sign exponent mantissa).toNat =
      sign.toBitVec.toNat * 2 ^ 63 + exponent.toNat * 2 ^ 52 + mantissa.toNat := by
  simp only [packComponents, toNat_append]
  ring

theorem unpackSign_packComponents (sign : Sign) (exponent : BitVec 11) (mantissa : BitVec 52) :
    unpackSign (packComponents .binary64 sign exponent mantissa) = sign.toBitVec := by
  have exponentLt : exponent.toNat < 2 ^ 11 := exponent.isLt
  have mantissaLt : mantissa.toNat < 2 ^ 52 := mantissa.isLt
  apply BitVec.eq_of_toNat_eq
  rw [toNat_unpackSign, toNat_packComponents]
  omega

/-- The sign of a bit pattern. -/
def signOf : Sign := Sign.ofBitVec (@unpackSign .binary64 bits)

theorem signOf_packComponents (sign : Sign) (exponent : BitVec 11) (mantissa : BitVec 52) :
    signOf (packComponents .binary64 sign exponent mantissa) = sign := by
  unfold signOf
  rw [unpackSign_packComponents]
  cases sign <;> rfl

/-- The sign, the exponent field and the mantissa field decide what a pattern stands for. -/
theorem unpack_eq {exponent mantissa : Nat} (exponentField : bits.toNat / 2 ^ 52 % 2 ^ 11 = exponent)
    (mantissaField : bits.toNat % 2 ^ 52 = mantissa) :
    unpack .binary64 bits =
      if exponent = 2047 then
        if mantissa = 0 then .infinity (signOf bits) else .notANumber
      else if exponent = 0 then
        if zero : mantissa = 0 then .zero (signOf bits)
        else .finite (signOf bits) mantissa (-1074) (Nat.pos_of_ne_zero zero)
      else .finite (signOf bits) (2 ^ 52 + mantissa) ((exponent : Nat) - 1075) (by omega) := by
  have exponentTop : @unpackExponent .binary64 bits = -1#11 ↔ exponent = 2047 := by
    rw [← BitVec.toNat_inj, toNat_unpackExponent, exponentField]
    rfl
  have exponentZero : @unpackExponent .binary64 bits = 0#11 ↔ exponent = 0 := by
    rw [← BitVec.toNat_inj, toNat_unpackExponent, exponentField]
    rfl
  have mantissaZero : @unpackMantissa .binary64 bits = 0#52 ↔ mantissa = 0 := by
    rw [← BitVec.toNat_inj, toNat_unpackMantissa, mantissaField]
    rfl
  have bias : ((Float.Model.Format.exponentBias .binary64 : Nat) : Int) +
      ((Float.Model.Format.mantissaBitsWithoutImplicit .binary64 : Nat) : Int) = 1075 := rfl
  simp only [UnpackedFloat.unpack, exponentTop, exponentZero, mantissaZero, toNat_append,
    toNat_unpackExponent, toNat_unpackMantissa, bias, exponentField, mantissaField]
  split_ifs with top zero least empty
  · rfl
  · rfl
  · rfl
  · rw [UnpackedFloat.finite.injEq]
    exact ⟨rfl, rfl, by rw [least]; rfl⟩
  · rw [UnpackedFloat.finite.injEq]
    exact ⟨rfl, rfl, rfl⟩

end Fields

/-! ### What a finite double stores -/

/-- The mantissas and exponents of finite doubles, without a greatest exponent. -/
structure Stored (mantissa : Nat) (exponent : Int) : Prop where
  below : mantissa < 2 ^ 53
  above : -1074 ≤ exponent
  full : 2 ^ 52 ≤ mantissa ∨ exponent = -1074

/-- An unpacked float that rounding can produce. -/
def Regular : UnpackedFloat → Prop
  | .finite _ mantissa exponent _ => Stored mantissa exponent
  | _ => True

/-- A finite value whose exponent is too great becomes infinite. -/
def saturate : UnpackedFloat → UnpackedFloat
  | .finite sign mantissa exponent positive =>
    if exponent ≤ 971 then .finite sign mantissa exponent positive else .infinity sign
  | other => other

/-- The logarithm of a stored mantissa tells a full one from the others. -/
theorem log2_eq_iff {mantissa : Nat} (below : mantissa < 2 ^ 53) :
    mantissa.log2 = 52 ↔ 2 ^ 52 ≤ mantissa := by
  rcases Nat.eq_zero_or_pos mantissa with rfl | positive
  · simp
  have nonzero : mantissa ≠ 0 := positive.ne'
  have upper : mantissa.log2 < 53 := (Nat.log2_lt nonzero).mpr below
  rw [← Nat.le_log2 nonzero]
  omega

theorem regular_unpack (bits : BitVec 64) :
    Regular (unpack .binary64 bits) ∧ saturate (unpack .binary64 bits) = unpack .binary64 bits := by
  rw [unpack_eq bits rfl rfl]
  split_ifs with top zero least empty
  · exact ⟨trivial, rfl⟩
  · exact ⟨trivial, rfl⟩
  · exact ⟨trivial, rfl⟩
  · refine ⟨⟨by omega, le_rfl, Or.inr rfl⟩, ?_⟩
    simp only [saturate]
    rw [if_pos (by omega)]
  · refine ⟨⟨by omega, by omega, Or.inl (by omega)⟩, ?_⟩
    simp only [saturate]
    rw [if_pos (by omega)]

/-- The fields of a packed double. -/
theorem fields_packComponents (sign : Sign) (exponent mantissa : Nat) (small : exponent < 2 ^ 11)
    (below : mantissa < 2 ^ 52) :
    let bits := packComponents .binary64 sign (BitVec.ofNat 11 exponent) (BitVec.ofNat 52 mantissa)
    bits.toNat / 2 ^ 52 % 2 ^ 11 = exponent ∧ bits.toNat % 2 ^ 52 = mantissa := by
  intro bits
  have number : bits.toNat = sign.toBitVec.toNat * 2 ^ 63 + exponent * 2 ^ 52 + mantissa := by
    rw [toNat_packComponents, BitVec.toNat_ofNat, BitVec.toNat_ofNat, Nat.mod_eq_of_lt small,
      Nat.mod_eq_of_lt below]
  have signLt : sign.toBitVec.toNat < 2 := sign.toBitVec.isLt
  omega

/-- The fields of a normal double read back. -/
theorem unpack_normal (sign : Sign) {mantissa : Nat} {exponent : Int} (positive : 0 < mantissa)
    (below : mantissa < 2 ^ 53) (full : 2 ^ 52 ≤ mantissa) (above : -1074 ≤ exponent)
    (small : exponent ≤ 971) :
    unpack .binary64 (packComponents .binary64 sign
      (BitVec.ofNat 11 (exponent + 1075).toNat) (BitVec.ofNat 52 mantissa)) =
      .finite sign mantissa exponent positive := by
  have dropped : BitVec.ofNat 52 mantissa = BitVec.ofNat 52 (mantissa - 2 ^ 52) := by
    apply BitVec.eq_of_toNat_eq
    rw [BitVec.toNat_ofNat, BitVec.toNat_ofNat]
    omega
  have fields := fields_packComponents sign (exponent + 1075).toNat (mantissa - 2 ^ 52)
    (by omega) (by omega)
  rw [dropped, unpack_eq _ fields.1 fields.2, signOf_packComponents, if_neg (by omega),
    if_neg (by omega), UnpackedFloat.finite.injEq]
  exact ⟨rfl, by omega, by omega⟩

/-- The fields of a double below the normal ones read back. -/
theorem unpack_subnormal (sign : Sign) {mantissa : Nat} (positive : 0 < mantissa)
    (below : mantissa < 2 ^ 52) :
    unpack .binary64 (packComponents .binary64 sign 0#11 (BitVec.ofNat 52 mantissa)) =
      .finite sign mantissa (-1074) positive := by
  have fields := fields_packComponents sign 0 mantissa (by omega) below
  rw [unpack_eq _ fields.1 fields.2, signOf_packComponents, if_neg (by omega), if_pos rfl,
    dif_neg positive.ne']

/-- **Packing what rounding produces** keeps it, up to the greatest exponent. -/
theorem unpack_pack {u : UnpackedFloat} (regular : Regular u) :
    (Float.Model.pack u).unpack = saturate u := by
  show unpack .binary64 (UnpackedFloat.pack .binary64 u) = saturate u
  cases u with
  | notANumber => rfl
  | infinity sign => cases sign <;> rfl
  | zero sign => cases sign <;> rfl
  | finite sign mantissa exponent positive =>
    obtain ⟨below, above, full⟩ := regular
    have biased : (exponent + (Float.Model.Format.exponentBias .binary64 : Nat) +
        (Float.Model.Format.mantissaBitsWithoutImplicit .binary64 : Nat)).toNat =
          (exponent + 1075).toNat := by
      rw [add_assoc]
      rfl
    have normal : mantissa.log2 + 1 = Float.Model.Format.mantissaBits .binary64 ↔
        2 ^ 52 ≤ mantissa := by
      rw [← log2_eq_iff below, show Float.Model.Format.mantissaBits .binary64 = 52 + 1 from rfl,
        Nat.add_right_cancel_iff]
    simp only [UnpackedFloat.pack, biased, normal, saturate]
    by_cases small : exponent ≤ 971
    · rw [if_neg (by omega), if_pos small]
      split_ifs with isFull
      · exact unpack_normal sign positive below isFull above small
      · obtain rfl : exponent = -1074 := full.resolve_left isFull
        exact unpack_subnormal sign positive (by omega)
    · rw [if_pos (by omega), if_neg small]
      cases sign <;> rfl

/-! ### Doubles are their bit patterns -/

theorem toBits_injective {a b : Float} (equal : a.toBits = b.toBits) : a = b := by
  rcases a with ⟨⟨bits, valid⟩⟩
  rcases b with ⟨⟨bits', valid'⟩⟩
  have : bits = bits' := equal
  subst this
  rfl

end Easing.Binary64
