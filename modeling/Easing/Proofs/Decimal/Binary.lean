/-
**The kinds of doubles, read off their patterns.**

`Double.ofFloat` and the unpacking that the arithmetic of doubles uses are two readings of one
pattern, and they agree (`unpacks_ofFloat`). Nothing of a double is lost but which NaN it is
(`Double.ofFloat_injective`).
-/
import Easing.Decimal.Binary
import Easing.Proofs.Binary64.Order

namespace Easing.Decimal

open Easing.Binary64
open Float.Model.UnpackedFloat (Sign)
open Float.Model (UnpackedFloat)

/-- The sign of a number that is negative or not. -/
def signOfNegative (negative : Bool) : Sign := if negative then .negative else .positive

/-- The unpacked float of a kind of double. -/
def Double.Unpacks (u : UnpackedFloat) : Double → Prop
  | .nan => u = .notANumber
  | .infinite negative => u = .infinity (signOfNegative negative)
  | .zero negative => u = .zero (signOfNegative negative)
  | .finite negative m =>
    ∃ positive, u = .finite (signOfNegative negative) m.units m.exponent positive

theorem signOf_eq (bits : BitVec 64) :
    signOf bits = signOfNegative (bits.toNat / Nat.pow 2 63 % 2 == 1) := by
  have number : (@Float.Model.UnpackedFloat.unpackSign .binary64 bits).toNat = bits.toNat / 2 ^ 63 :=
    toNat_unpackSign bits
  have bound : bits.toNat / 2 ^ 63 < 2 := by
    have := bits.isLt
    omega
  have zero : @Float.Model.UnpackedFloat.unpackSign .binary64 bits = 0#1 ↔
      bits.toNat / 2 ^ 63 = 0 := by
    rw [← BitVec.toNat_inj, number]
    rfl
  unfold signOf Sign.ofBitVec signOfNegative
  rcases (by omega : bits.toNat / 2 ^ 63 = 0 ∨ bits.toNat / 2 ^ 63 = 1) with clear | set
  · have bit : (bits.toNat / Nat.pow 2 63 % 2 == 1) = false := by
      rw [show bits.toNat / Nat.pow 2 63 = 0 from clear]
      rfl
    rw [if_pos (zero.mpr clear), bit]
    rfl
  · have bit : (bits.toNat / Nat.pow 2 63 % 2 == 1) = true := by
      rw [show bits.toNat / Nat.pow 2 63 = 1 from set]
      rfl
    rw [if_neg (by rw [zero]; omega), bit]
    rfl

theorem ofBits_eq {bits exponent mantissa : Nat} (exponentField : bits / 2 ^ 52 % 2 ^ 11 = exponent)
    (mantissaField : bits % 2 ^ 52 = mantissa) :
    Double.ofBits bits =
      if exponent = 2047 then
        if mantissa = 0 then .infinite (bits / Nat.pow 2 63 % 2 == 1) else .nan
      else if exponent = 0 then
        if mantissa = 0 then .zero (bits / Nat.pow 2 63 % 2 == 1)
        else .finite (bits / Nat.pow 2 63 % 2 == 1) ⟨mantissa, -1074, false⟩
      else
        .finite (bits / Nat.pow 2 63 % 2 == 1)
          ⟨Nat.pow 2 52 + mantissa, (exponent : Int) - 1075, mantissa == 0 && exponent != 1⟩ := by
  subst exponentField mantissaField
  rfl

/-- The two readings of a double agree. -/
theorem unpacks_ofFloat (a : Float) : Double.Unpacks (unpacked a) (Double.ofFloat a) := by
  show Double.Unpacks (UnpackedFloat.unpack .binary64 a.toBits.toBitVec)
    (Double.ofBits a.toBits.toBitVec.toNat)
  generalize a.toBits.toBitVec = bits
  obtain ⟨exponent, exponentField⟩ : ∃ exponent, bits.toNat / 2 ^ 52 % 2 ^ 11 = exponent := ⟨_, rfl⟩
  obtain ⟨mantissa, mantissaField⟩ : ∃ mantissa, bits.toNat % 2 ^ 52 = mantissa := ⟨_, rfl⟩
  rw [unpack_eq bits exponentField mantissaField, ofBits_eq exponentField mantissaField, signOf_eq]
  split_ifs with top empty least empty
  · rfl
  · rfl
  · rfl
  · exact ⟨Nat.pos_of_ne_zero empty, rfl⟩
  · exact ⟨Nat.add_pos_left (Nat.two_pow_pos 52) mantissa, rfl⟩

/-! ### A double is its kind -/

namespace Double

/-- The sign, the exponent field and the mantissa field of a kind of double. -/
def fields : Double → Bool × ℕ × ℕ
  | .nan => (false, 2047, 1)
  | .infinite negative => (negative, 2047, 0)
  | .zero negative => (negative, 0, 0)
  | .finite negative m =>
    if m.units < 2 ^ 52 then (negative, 0, m.units)
    else (negative, (m.exponent + 1075).toNat, m.units - 2 ^ 52)

theorem fields_ofBits {bits : ℕ} (number : ofBits bits ≠ .nan) :
    fields (ofBits bits) =
      (bits / Nat.pow 2 63 % 2 == 1, bits / 2 ^ 52 % 2 ^ 11, bits % 2 ^ 52) := by
  obtain ⟨exponent, exponentField⟩ : ∃ exponent, bits / 2 ^ 52 % 2 ^ 11 = exponent := ⟨_, rfl⟩
  obtain ⟨mantissa, mantissaField⟩ : ∃ mantissa, bits % 2 ^ 52 = mantissa := ⟨_, rfl⟩
  have small : mantissa < 2 ^ 52 := by
    rw [← mantissaField]
    exact Nat.mod_lt _ (by decide)
  rw [ofBits_eq exponentField mantissaField] at number ⊢
  rw [exponentField, mantissaField]
  split_ifs at number ⊢ with top infinite least empty
  · rw [top, infinite]
    rfl
  · exact absurd rfl number
  · rw [least, empty]
    rfl
  · rw [least]
    exact if_pos small
  · have units : Nat.pow 2 52 + mantissa - 2 ^ 52 = mantissa := Nat.add_sub_cancel_left _ _
    have biased : ((exponent : ℤ) - 1075 + 1075).toNat = exponent := by omega
    simp only [fields, units, biased]
    exact if_neg (Nat.not_lt.mpr (Nat.le_add_right _ _))

/-- A double is its kind, unless it is NaN. -/
theorem ofFloat_injective {a b : Float} (number : ofFloat a ≠ .nan)
    (same : ofFloat a = ofFloat b) : a = b := by
  have equal := congrArg fields same
  unfold ofFloat at equal number same
  rw [fields_ofBits number, fields_ofBits (same ▸ number), Prod.mk.injEq, Prod.mk.injEq] at equal
  obtain ⟨signs, exponents, mantissas⟩ := equal
  have bound := a.toBits.toNat_lt
  have bound' := b.toBits.toNat_lt
  apply toBits_injective
  apply UInt64.toNat_inj.mp
  rw [Bool.eq_iff_iff, beq_iff_eq, beq_iff_eq, Nat.pow_eq] at signs
  omega

/-- A finite double is zero or has a magnitude. -/
theorem finite_kinds {a : Float} (finite : Scalar.isFinite a = true) :
    (∃ negative, ofFloat a = .zero negative) ∨
      ∃ negative m, ofFloat a = .finite negative m := by
  have agree := unpacks_ofFloat a
  obtain ⟨number, bounded⟩ : a.isNaN = false ∧ a.isInf = false := by
    simpa [Scalar.isFinite, Scalar.isNaN, Scalar.isInfinite] using finite
  cases kind : ofFloat a with
  | nan =>
    rw [kind] at agree
    exact absurd agree ((number_iff a).mp number)
  | infinite negative =>
    rw [kind] at agree
    change (unpacked a).isInf = false at bounded
    rw [show unpacked a = .infinity (signOfNegative negative) from agree] at bounded
    cases bounded
  | zero negative => exact Or.inl ⟨negative, rfl⟩
  | finite negative m => exact Or.inr ⟨negative, m, rfl⟩

end Double

end Easing.Decimal
