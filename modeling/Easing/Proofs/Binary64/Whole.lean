/-
**Whole numbers and proportions among doubles.**

Whole numbers below `2 ^ 53` are doubles, and sums of them that stay below are exact. A double is
rounded down by cutting off its fraction. A quotient of doubles in order rounds to a double of the
unit interval, and a product of this one with a whole number to one that is not greater.

* `eq_of_level`: a real other than zero is held by one double.
* `floorNat_eq`: rounding down.
* the instances `Indexing Float` and `Proportional Float`.
-/
import Easing.Proofs.Decimal.Interval
import Easing.Proofs.Scalar.Binary64
import Easing.Proofs.Scalar.Order

namespace Easing.Binary64

open Float.Model.UnpackedFloat
open Float.Model (UnpackedFloat)

noncomputable section

variable {a b : Float} {x y : ℝ} {m n : ℕ}

/-! ### Doubles of one place -/

/-- A double that holds a real other than zero has this real as its magnitude, with a sign. -/
theorem exists_magnitude (holds : Holds (unpacked a) x) (nonzero : x ≠ 0) :
    ∃ negative m, Decimal.Double.ofFloat a = .finite negative m ∧ m.Legal ∧
      x = signed (Decimal.signOfNegative negative) m.value := by
  have kind := Decimal.unpacks_ofFloat a
  cases form : Decimal.Double.ofFloat a with
  | nan =>
    rw [form] at kind
    rw [show unpacked a = .notANumber from kind] at holds
    exact holds.elim
  | infinite negative =>
    rw [form] at kind
    rw [show unpacked a = .infinity _ from kind] at holds
    exact holds.elim
  | zero negative =>
    rw [form] at kind
    rw [show unpacked a = .zero _ from kind] at holds
    exact absurd holds nonzero
  | finite negative m =>
    rw [form] at kind
    obtain ⟨_, same⟩ := kind
    rw [same] at holds
    exact ⟨negative, m, rfl, Decimal.Magnitude.legal_ofFloat form, holds⟩

/-- **A real other than zero is held by one double.** -/
theorem eq_of_level (nonzero : x ≠ 0) (first : level a = x) (second : level b = x) : a = b := by
  obtain ⟨negative, m, form, legal, value⟩ := exists_magnitude (holds_of_level first) nonzero
  obtain ⟨negative', m', form', legal', value'⟩ := exists_magnitude (holds_of_level second) nonzero
  have above := Decimal.Magnitude.value_pos legal.positive
  have above' := Decimal.Magnitude.value_pos legal'.positive
  have same : negative = negative' ∧ m.value = m'.value := by
    rw [value] at value'
    cases negative <;> cases negative' <;>
      simp only [Decimal.signOfNegative, signed, Bool.false_eq_true, if_true, if_false] at value'
    · exact ⟨rfl, value'⟩
    · linarith
    · linarith
    · exact ⟨rfl, neg_injective value'⟩
  have number : Decimal.Double.ofFloat a ≠ .nan := by
    rw [form]
    intro absurdity
    cases absurdity
  refine Decimal.Double.ofFloat_injective number ?_
  rw [form, form', same.1, legal.eq_of_value_eq legal' same.2]

/-- A place between two reals is a real. -/
theorem exists_level (low : x ≤ level a) (high : level a ≤ y) :
    ∃ z : ℝ, level a = z ∧ x ≤ z ∧ z ≤ y := by
  have notBot : level a ≠ ⊥ := fun bot => (EReal.coe_ne_bot x) (le_bot_iff.mp (bot ▸ low))
  have notTop : level a ≠ ⊤ := fun top => (EReal.coe_ne_top y) (top_le_iff.mp (top ▸ high))
  have real : level a = (level a).toReal := (EReal.coe_toReal notTop notBot).symm
  rw [real] at low high
  exact ⟨_, real, EReal.coe_le_coe_iff.mp low, EReal.coe_le_coe_iff.mp high⟩

/-- Numbers in the order of the reals they hold. -/
theorem le_of_levels (first : level a = x) (second : level b = y) (le : x ≤ y) : a ≤ b := by
  refine le_iff.mpr ⟨isNaN_eq_false ?_, isNaN_eq_false ?_, ?_⟩
  · rw [first]
    exact EReal.coe_ne_bot x
  · rw [second]
    exact EReal.coe_ne_bot y
  · rw [first, second]
    exact EReal.coe_le_coe_iff.mpr le

theorem lt_of_levels (first : level a = x) (second : level b = y) (lt : x < y) : a < b := by
  refine lt_iff.mpr ⟨isNaN_eq_false ?_, isNaN_eq_false ?_, ?_⟩
  · rw [first]
    exact EReal.coe_ne_bot x
  · rw [second]
    exact EReal.coe_ne_bot y
  · rw [first, second]
    exact EReal.coe_lt_coe_iff.mpr lt

/-! ### Whole numbers -/

theorem level_natCast (small : n < wholeLimit) : level (Float.ofNat n) = (n : ℝ) := by
  rw [level_ofNat, nearest_natCast small]
  rfl

theorem isNaN_natCast (small : n < wholeLimit) : (Float.ofNat n).isNaN = false :=
  isNaN_eq_false (by rw [level_natCast small]; exact EReal.coe_ne_bot _)

theorem isFinite_of_holds (holds : Holds (unpacked a) x) : Scalar.isFinite a = true := by
  have number : a.isNaN = false :=
    isNaN_eq_false (by rw [level_of_holds holds]; exact EReal.coe_ne_bot _)
  have bounded : a.isInf = false := by
    show (unpacked a).isInf = false
    cases form : unpacked a with
    | infinity sign =>
      rw [form] at holds
      exact holds.elim
    | _ => rfl
  show (!a.isNaN && !a.isInf) = true
  rw [number, bounded]
  rfl

theorem holds_of_isFinite (finite : Scalar.isFinite a = true) : ∃ x, Holds (unpacked a) x := by
  have kept : (!a.isNaN && !a.isInf) = true := finite
  rw [Bool.and_eq_true, Bool.not_eq_true', Bool.not_eq_true'] at kept
  rcases kinds (unpacked a) with kind | kind | kind | holds
  · exact absurd kind ((number_iff a).mp kept.1)
  · have : (unpacked a).isInf = false := kept.2
    rw [kind] at this
    cases this
  · have : (unpacked a).isInf = false := kept.2
    rw [kind] at this
    cases this
  · exact holds

theorem ofNat_add (small : m + n < wholeLimit) :
    Float.ofNat m + Float.ofNat n = Float.ofNat (m + n) := by
  rcases Nat.eq_zero_or_pos (m + n) with zero | positive
  · obtain ⟨rfl, rfl⟩ := Nat.add_eq_zero_iff.mp zero
    decide +kernel
  · have first : level (Float.ofNat m) = (m : ℝ) := level_natCast (by omega)
    have second : level (Float.ofNat n) = (n : ℝ) := level_natCast (by omega)
    refine eq_of_level (x := ((m + n : ℕ) : ℝ)) (by exact_mod_cast positive.ne') ?_
      (level_natCast small)
    rw [level_add_of_holds (holds_of_level first) (holds_of_level second), ← Nat.cast_add,
      nearest_natCast small]
    rfl

theorem ofNat_sub_one (small : n + 1 < wholeLimit) :
    Float.ofNat (n + 1) - Float.ofNat 1 = Float.ofNat n := by
  rcases Nat.eq_zero_or_pos n with rfl | positive
  · decide +kernel
  · have first : level (Float.ofNat (n + 1)) = ((n + 1 : ℕ) : ℝ) := level_natCast small
    have second : level (Float.ofNat 1) = ((1 : ℕ) : ℝ) := level_natCast (by decide)
    have difference : ((n + 1 : ℕ) : ℝ) + -((1 : ℕ) : ℝ) = n := by push_cast; ring
    have before : n < wholeLimit := Nat.lt_of_succ_lt small
    refine eq_of_level (x := (n : ℝ)) (by exact_mod_cast positive.ne') ?_ (level_natCast before)
    rw [sub_eq_add_neg, level_add_of_holds (holds_of_level first)
      (holds_neg (holds_of_level second)), difference, nearest_natCast before]
    rfl

theorem ofNat_lt_iff (small : m < wholeLimit) (small' : n < wholeLimit) :
    Float.ofNat m < Float.ofNat n ↔ m < n := by
  rw [lt_iff, level_natCast small, level_natCast small', EReal.coe_lt_coe_iff, Nat.cast_lt]
  exact ⟨fun less => less.2.2, fun less => ⟨isNaN_natCast small, isNaN_natCast small', less⟩⟩

theorem ofNat_beq (small : m < wholeLimit) (small' : n < wholeLimit) :
    (Float.ofNat m == Float.ofNat n) = (m == n) := by
  rw [Bool.eq_iff_iff, beq_iff, level_natCast small, level_natCast small', EReal.coe_eq_coe_iff,
    Nat.cast_inj, beq_iff_eq]
  exact ⟨fun same => same.2.2, fun same => ⟨isNaN_natCast small, isNaN_natCast small', same⟩⟩

/-! ### Rounding down -/

/-- Moving to an exponent that is not greater keeps the value. -/
theorem decreaseExponent_value (mantissa : ℕ) (exponent target : ℤ) :
    ((decreaseExponent mantissa exponent target).1 : ℝ) *
      2 ^ (decreaseExponent mantissa exponent target).2 = mantissa * 2 ^ exponent := by
  have value := shiftLeft_value mantissa
    (sub_le_self exponent (Int.natCast_nonneg (exponent - target).toNat))
  rwa [sub_sub_cancel, Int.toNat_natCast] at value

/-- The fraction of a positive number is cut off. -/
theorem roundToInt_eq (mantissa : ℕ) (exponent : ℤ) :
    roundToInt .positive mantissa exponent = ⌊(mantissa : ℝ) * 2 ^ exponent⌋ := by
  have fine : (decreaseExponent mantissa exponent 0).2 ≤ 0 := by
    show exponent - (exponent - 0).toNat ≤ 0
    omega
  rw [← decreaseExponent_value mantissa exponent 0]
  unfold roundToInt
  generalize decreaseExponent mantissa exponent 0 = moved at fine
  obtain ⟨units, place⟩ := moved
  have floor := ((Describes.exact units).shiftRight (0 - place).toNat).floor
  have shift : (2 : ℝ) ^ place = (2 ^ (0 - place).toNat)⁻¹ := by
    rw [← zpow_natCast, ← zpow_neg]
    congr 1
    dsimp only at fine
    omega
  dsimp only
  rw [shift, ← div_eq_mul_inv, floor, shiftToExponent_eq _ _ fine]
  rfl

/-- **A double is rounded down by cutting off its fraction.** -/
theorem floorNat_eq (nonneg : 0 ≤ x) (small : x < 2 ^ 53) (real : level a = x) :
    (a.toUInt64.toNat : ℤ) = ⌊x⌋ := by
  have cut : UnpackedFloat.toInt 0 (UInt64.size - 1) (unpacked a) = ⌊x⌋ := by
    have holds := holds_of_level real
    rcases nonneg.eq_or_lt with rfl | positive
    · rw [Int.floor_zero]
      cases form : unpacked a with
      | zero sign => rfl
      | finite sign mantissa exponent above =>
        rw [form] at holds
        have holds : (0 : ℝ) = signed sign (mantissa * 2 ^ exponent) := holds
        have above' : (0 : ℝ) < mantissa * 2 ^ exponent := by
          have : (0 : ℝ) < mantissa := by exact_mod_cast above
          positivity
        cases sign with
        | positive => exact absurd holds above'.ne
        | negative => exact absurd (neg_eq_zero.mp holds.symm) above'.ne'
      | _ =>
        rw [form] at holds
        exact holds.elim
    · obtain ⟨mantissa, exponent, above, form⟩ := finite_of_holds holds positive
      rw [form] at holds ⊢
      rw [show x = mantissa * 2 ^ exponent from holds]
      exact roundToInt_eq mantissa exponent
  have below : ⌊x⌋ < 2 ^ 53 := Int.floor_lt.mpr (by exact_mod_cast small)
  have above : 0 ≤ ⌊x⌋ := Int.floor_nonneg.mpr nonneg
  have fits : ⌊x⌋.toNat < UInt64.size := by
    rw [show UInt64.size = 2 ^ 64 from rfl]
    omega
  show ((UInt64.ofNatClamp (UnpackedFloat.toInt 0 (UInt64.size - 1) (unpacked a)).toNat).toNat : ℤ) = _
  rw [cut, UInt64.ofNatClamp, dif_pos fits, UInt64.toNat_ofNatLT]
  omega

theorem floorNat_ofNat (small : n < wholeLimit) : (Float.ofNat n).toUInt64.toNat = n := by
  have cut := floorNat_eq (Nat.cast_nonneg n) (by exact_mod_cast small) (level_natCast small)
  rw [Int.floor_natCast] at cut
  exact_mod_cast cut

/-- A place between zero and a whole number is less than one right of the whole number below. -/
theorem floorNat_spec (small : n + 1 < wholeLimit) (low : Float.ofNat 0 ≤ a)
    (high : a ≤ Float.ofNat n) :
    a.toUInt64.toNat ≤ n ∧ Float.ofNat a.toUInt64.toNat ≤ a ∧
      a < Float.ofNat a.toUInt64.toNat + Float.ofNat 1 := by
  have small' : n < wholeLimit := Nat.lt_of_succ_lt small
  obtain ⟨-, -, below⟩ := le_iff.mp low
  obtain ⟨-, -, above⟩ := le_iff.mp high
  rw [level_zero] at below
  rw [level_natCast small'] at above
  obtain ⟨x, real, nonneg, le⟩ := exists_level (x := 0) below above
  have limit : (n : ℝ) < 2 ^ 53 := by exact_mod_cast small'
  have cut := floorNat_eq nonneg (le.trans_lt limit) real
  generalize a.toUInt64.toNat = k at cut
  obtain ⟨kLe, lt⟩ := Int.floor_eq_iff.mp cut.symm
  rw [Int.cast_natCast] at kLe lt
  have inside : k ≤ n := by exact_mod_cast kLe.trans le
  have next : k + 1 < wholeLimit := Nat.lt_of_le_of_lt (Nat.succ_le_succ inside) small
  refine ⟨inside, le_of_levels (level_natCast (Nat.lt_of_succ_lt next)) real kLe, ?_⟩
  rw [ofNat_add next]
  exact lt_of_levels real (level_natCast next) (by exact_mod_cast lt)

instance : Indexing Float where
  isFinite_natCast small := isFinite_of_holds (holds_of_level (level_natCast small))
  same_natCast _ := beq_self_eq_true _
  add_natCast := ofNat_add
  sub_one := ofNat_sub_one
  natCast_lt := ofNat_lt_iff
  natCast_beq := ofNat_beq
  floorNat_natCast := floorNat_ofNat
  floorNat_spec := floorNat_spec

/-! ### Proportions -/

/-- A share of a finite length, in pieces. -/
theorem share_mem (small : n < wholeLimit) (positive : Float.ofNat 0 < a) (le : a ≤ b)
    (finite : Scalar.isFinite b = true) :
    Float.ofNat 0 ≤ a / b * Float.ofNat n ∧ a / b * Float.ofNat n ≤ Float.ofNat n := by
  obtain ⟨y, holds⟩ := holds_of_isFinite finite
  obtain ⟨-, -, above⟩ := lt_iff.mp positive
  obtain ⟨-, -, below⟩ := le_iff.mp le
  rw [level_zero] at above
  rw [level_of_holds holds] at below
  obtain ⟨x, real, -, lower⟩ := exists_level (x := 0) above.le below
  have xPos : 0 < x := by
    rw [real] at above
    exact EReal.coe_pos.mp above
  have yPos : 0 < y := xPos.trans_le lower
  -- the quotient is rounded within the unit interval
  have quotient := level_div_of_holds (holds_of_level real) holds yPos.ne'
  have low : ((0 : ℝ) : EReal) ≤ level (a / b) := by
    rw [quotient]
    exact nearest_nonneg (div_pos xPos yPos).le
  have high : level (a / b) ≤ ((1 : ℝ) : EReal) := by
    have one : nearest ((1 : ℕ) : ℝ) = ((1 : ℕ) : EReal) := nearest_natCast (by decide)
    rw [Nat.cast_one] at one
    rw [quotient]
    refine (nearest_mono ((div_le_one yPos).mpr lower)).trans (one.trans_le ?_)
    rw [Nat.cast_one, EReal.coe_one]
  obtain ⟨q, share, qNonneg, qLe⟩ := exists_level low high
  have whole := level_natCast small
  have product := level_mul_of_holds (holds_of_level share) (holds_of_level whole)
  have most : q * n ≤ n := mul_le_of_le_one_left (Nat.cast_nonneg n) qLe
  have bottom : ((0 : ℝ) : EReal) ≤ level (a / b * Float.ofNat n) := by
    rw [product]
    exact nearest_nonneg (mul_nonneg qNonneg (Nat.cast_nonneg n))
  have top : level (a / b * Float.ofNat n) ≤ ((n : ℝ) : EReal) := by
    rw [product]
    exact (nearest_mono most).trans (nearest_natCast small).le
  obtain ⟨p, place, pNonneg, pLe⟩ := exists_level bottom top
  exact ⟨le_of_levels (x := 0) level_zero place pNonneg, le_of_levels place whole pLe⟩

/-- No number stays none in a sum and in a quotient. -/
theorem unpacked_none {u : UnpackedFloat} (none : u = .notANumber) :
    (Float.Model.pack u).unpack = .notANumber := by
  rw [none]
  exact unpack_pack (u := .notANumber) trivial

/-- Nothing of an infinite length is no number. -/
theorem isNaN_of_infinite (c : Float) (infinite : Scalar.isFinite b = false) :
    (a + b * Float.ofNat 0 / c).isNaN = true := by
  have zero : unpacked (Float.ofNat 0) = .zero .positive := rfl
  have nothing : unpacked (b * Float.ofNat 0) = .notANumber := by
    refine unpacked_none (u := UnpackedFloat.mul .binary64 (unpacked b) (unpacked (.ofNat 0))) ?_
    rw [zero]
    rcases kinds (unpacked b) with kind | kind | kind | ⟨x, holds⟩
    · rw [kind]
      rfl
    · rw [kind]
      rfl
    · rw [kind]
      rfl
    · rw [isFinite_of_holds holds] at infinite
      cases infinite
  have share : unpacked (b * Float.ofNat 0 / c) = .notANumber := by
    refine unpacked_none
      (u := UnpackedFloat.div .binary64 (unpacked (b * Float.ofNat 0)) (unpacked c)) ?_
    rw [nothing]
    rfl
  rw [isNaN_iff]
  refine unpacked_none
    (u := UnpackedFloat.add .binary64 (unpacked a) (unpacked (b * Float.ofNat 0 / c))) ?_
  rw [share]
  cases unpacked a <;> rfl

/-- A number further to the right is not nearer. -/
theorem sub_le_sub_right {c : Float} (le : a ≤ b) (less : c < a) : a - c ≤ b - c := by
  obtain ⟨-, number, below⟩ := le_iff.mp le
  obtain ⟨isNumber, -, above⟩ := lt_iff.mp less
  have first := sub_pos_iff.mpr less
  have second := sub_pos_iff.mpr (lt_iff.mpr ⟨isNumber, number, above.trans_le below⟩)
  refine le_iff.mpr ⟨(lt_iff.mp first).2.1, (lt_iff.mp second).2.1, ?_⟩
  rw [sub_eq_add_neg, sub_eq_add_neg]
  exact level_add_mono below

instance : Proportional Float where
  sub_le_sub_right := sub_le_sub_right
  share_mem := share_mem
  isNaN_nan := by decide +kernel
  isNaN_of_infinite := isNaN_of_infinite

end

end Easing.Binary64
