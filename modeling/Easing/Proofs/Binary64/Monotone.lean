/-
**Operations of doubles along the extended line.**

With one operand fixed, sums, products and quotients of doubles move along the extended line, and
so does the rounding to whole numbers. Differences tell apart all doubles that differ.

* `stretch`: a map of reals that keeps both ends, which every such operation is.
* `level_add_mono`, `level_mul_mono`, `level_div_mono`, `level_round_mono`: the order is kept.
* `sub_pos_iff`, `sub_le_sub`: no difference of unequal numbers is lost in rounding.
-/
import Easing.Scalar.Binary64
import Easing.Proofs.Binary64.Scientific
import Easing.Proofs.Decimal.Binary

namespace Easing.Binary64

open Float.Model.UnpackedFloat
open Float.Model (UnpackedFloat)

noncomputable section

/-! ### Maps of the extended line -/

/-- A map of reals that keeps both ends of the extended line. -/
def stretch (f : ℝ → EReal) (x : EReal) : EReal :=
  if x = ⊥ then ⊥ else if x = ⊤ then ⊤ else f x.toReal

variable {f : ℝ → EReal} {a b c : Float} {x y : ℝ}

theorem stretch_bot : stretch f ⊥ = ⊥ := if_pos rfl

theorem stretch_top : stretch f ⊤ = ⊤ := by
  rw [stretch, if_neg (by simp), if_pos rfl]

theorem stretch_coe (x : ℝ) : stretch f x = f x := by
  rw [stretch, if_neg (EReal.coe_ne_bot x), if_neg (EReal.coe_ne_top x), EReal.toReal_coe]

theorem stretch_mono (mono : Monotone f) : Monotone (stretch f) := by
  intro x y le
  induction x with
  | bot => rw [stretch_bot]; exact bot_le
  | top => rw [top_le_iff.mp le]
  | coe x =>
    induction y with
    | bot => exact absurd (le_bot_iff.mp le) (EReal.coe_ne_bot x)
    | top => rw [stretch_top]; exact le_top
    | coe y =>
      rw [stretch_coe, stretch_coe]
      exact mono (EReal.coe_le_coe_iff.mp le)

theorem level_of_holds (holds : Holds (unpacked a) x) : level a = x := place_of_holds holds

/-- A positive real is held with a positive sign. -/
theorem finite_of_holds {u : UnpackedFloat} (holds : Holds u x) (positive : 0 < x) :
    ∃ mantissa exponent above, u = .finite .positive mantissa exponent above := by
  cases u with
  | notANumber => exact holds.elim
  | infinity sign => exact holds.elim
  | zero sign => exact absurd positive (by rw [show x = 0 from holds]; exact lt_irrefl 0)
  | finite sign mantissa exponent above =>
    cases sign with
    | positive => exact ⟨mantissa, exponent, above, rfl⟩
    | negative =>
      have negative : x = -(mantissa * 2 ^ exponent) := holds
      have : (0 : ℝ) < mantissa * 2 ^ exponent := by positivity
      linarith

/-- An operation that keeps NaN and both infinities moves along the extended line. -/
theorem place_stretch {g : UnpackedFloat → UnpackedFloat} (none : g .notANumber = .notANumber)
    (top : g (.infinity .positive) = .infinity .positive)
    (bottom : g (.infinity .negative) = .infinity .negative)
    (real : ∀ x, Holds (unpacked a) x →
      place (Float.Model.pack (g (unpacked a))).unpack = f x) :
    place (Float.Model.pack (g (unpacked a))).unpack = stretch f (level a) := by
  rcases kinds (unpacked a) with kind | kind | kind | ⟨x, holds⟩
  · rw [level, kind, none]
    exact (congrArg place (unpack_pack (u := .notANumber) trivial)).trans stretch_bot.symm
  · rw [level, kind, top]
    exact (congrArg place (unpack_pack (u := .infinity .positive) trivial)).trans stretch_top.symm
  · rw [level, kind, bottom]
    exact (congrArg place (unpack_pack (u := .infinity .negative) trivial)).trans stretch_bot.symm
  · rw [real x holds, level_of_holds holds, stretch_coe]

/-- A sum with a real. -/
theorem level_add (holds : Holds (unpacked c) y) :
    level (a + c) = stretch (fun x => nearest (x + y)) (level a) := by
  refine place_stretch (g := fun u => UnpackedFloat.add .binary64 u (unpacked c)) rfl ?_ ?_
    fun x real => level_add_of_holds real holds
  all_goals
    generalize unpacked c = v at holds ⊢
    cases v with
    | notANumber => exact holds.elim
    | infinity sign => exact holds.elim
    | _ => rfl

/-- A product with a positive real. -/
theorem level_mul (holds : Holds (unpacked c) y) (positive : 0 < y) :
    level (a * c) = stretch (fun x => nearest (x * y)) (level a) := by
  obtain ⟨mantissa, exponent, above, finite⟩ := finite_of_holds holds positive
  refine place_stretch (g := fun u => UnpackedFloat.mul .binary64 u (unpacked c)) rfl ?_ ?_
    fun x real => level_mul_of_holds real holds
  all_goals
    rw [finite]
    rfl

/-- A quotient by a positive real. -/
theorem level_div (holds : Holds (unpacked c) y) (positive : 0 < y) :
    level (a / c) = stretch (fun x => nearest (x / y)) (level a) := by
  obtain ⟨mantissa, exponent, above, finite⟩ := finite_of_holds holds positive
  refine place_stretch (g := fun u => UnpackedFloat.div .binary64 u (unpacked c)) rfl ?_ ?_
    fun x real => level_div_of_holds real holds positive.ne'
  all_goals
    rw [finite]
    rfl

/-! ### Sums without an end -/

/-- An offset without an end carries every number but the lowest to the top. -/
theorem level_add_top (kind : unpacked c = .infinity .positive) :
    level (a + c) = if level a = ⊥ then ⊥ else ⊤ := by
  show place (Float.Model.pack (UnpackedFloat.add .binary64 (unpacked a) (unpacked c))).unpack =
    if place (unpacked a) = ⊥ then ⊥ else ⊤
  rw [kind]
  rcases kinds (unpacked a) with kind' | kind' | kind' | ⟨x, real⟩
  · rw [kind', if_pos (by rfl)]
    exact congrArg place (unpack_pack (u := .notANumber) trivial)
  · rw [kind', if_neg (by simp [place])]
    exact congrArg place (unpack_pack (u := .infinity .positive) trivial)
  · rw [kind', if_pos (by rfl)]
    exact congrArg place (unpack_pack (u := .notANumber) trivial)
  · rw [place_of_holds real, if_neg (EReal.coe_ne_bot x)]
    generalize unpacked a = u at real ⊢
    cases u with
    | notANumber => exact real.elim
    | infinity sign => exact real.elim
    | _ => exact congrArg place (unpack_pack (u := .infinity .positive) trivial)

/-- An offset without an end in the other direction leaves nothing above the lowest place. -/
theorem level_add_bottom (kind : unpacked c = .infinity .negative) : level (a + c) = ⊥ := by
  show place (Float.Model.pack (UnpackedFloat.add .binary64 (unpacked a) (unpacked c))).unpack = _
  rw [kind]
  rcases kinds (unpacked a) with kind' | kind' | kind' | ⟨x, real⟩
  · rw [kind']
    exact congrArg place (unpack_pack (u := .notANumber) trivial)
  · rw [kind']
    exact congrArg place (unpack_pack (u := .notANumber) trivial)
  · rw [kind']
    exact congrArg place (unpack_pack (u := .infinity .negative) trivial)
  · generalize unpacked a = u at real ⊢
    cases u with
    | notANumber => exact real.elim
    | infinity sign => exact real.elim
    | _ => exact congrArg place (unpack_pack (u := .infinity .negative) trivial)

theorem level_add_nan (kind : unpacked c = .notANumber) : level (a + c) = ⊥ := by
  show place (Float.Model.pack (UnpackedFloat.add .binary64 (unpacked a) (unpacked c))).unpack = _
  rw [kind]
  cases unpacked a <;> exact congrArg place (unpack_pack (u := .notANumber) trivial)

/-! ### Operations keep the order -/

/-- Sums keep the order, also with an infinite offset or none. -/
theorem level_add_mono (le : level a ≤ level b) : level (a + c) ≤ level (b + c) := by
  rcases kinds (unpacked c) with kind | kind | kind | ⟨y, holds⟩
  · rw [level_add_nan kind]
    exact bot_le
  · rw [level_add_top kind, level_add_top kind]
    by_cases lowest : level a = ⊥
    · rw [if_pos lowest]
      exact bot_le
    · have notLowest : level b ≠ ⊥ := fun same => lowest (le_bot_iff.mp (same ▸ le))
      rw [if_neg lowest, if_neg notLowest]
  · rw [level_add_bottom kind]
    exact bot_le
  · rw [level_add holds, level_add holds]
    exact stretch_mono (fun x x' less => nearest_mono (by linarith)) le

theorem level_mul_mono (holds : Holds (unpacked c) y) (positive : 0 < y)
    (le : level a ≤ level b) : level (a * c) ≤ level (b * c) := by
  rw [level_mul holds positive, level_mul holds positive]
  exact stretch_mono
    (fun x x' less => nearest_mono (mul_le_mul_of_nonneg_right less positive.le)) le

theorem level_div_mono (holds : Holds (unpacked c) y) (positive : 0 < y)
    (le : level a ≤ level b) : level (a / c) ≤ level (b / c) := by
  rw [level_div holds positive, level_div holds positive]
  exact stretch_mono
    (fun x x' less => nearest_mono (div_le_div_of_nonneg_right less positive.le)) le

/-! ### Differences -/

/-- What is above the lowest place is a number. -/
theorem isNaN_eq_false (above : level a ≠ ⊥) : a.isNaN = false := by
  rw [number_iff]
  intro none
  rw [level, none] at above
  exact above rfl

theorem level_zero : level (Float.ofNat 0) = 0 := by
  rw [level_ofNat, Nat.cast_zero, nearest_zero]

theorem holds_neg (holds : Holds (unpacked a) x) : Holds (unpacked (-a)) (-x) := by
  rw [unpacked_neg]
  generalize unpacked a = u at holds ⊢
  cases u with
  | notANumber => exact holds.elim
  | infinity sign => exact holds.elim
  | zero sign =>
    rw [show x = 0 from holds, neg_zero]
    exact rfl
  | finite sign mantissa exponent positive =>
    rw [show x = _ from holds]
    cases sign
    · exact neg_neg _
    · rfl

theorem level_neg (number : a.isNaN = false) : level (-a) = -level a := by
  rcases kinds (unpacked a) with kind | kind | kind | ⟨x, holds⟩
  · exact absurd kind ((number_iff a).mp number)
  · rw [level, unpacked_neg, level, kind]
    exact EReal.neg_top.symm
  · rw [level, unpacked_neg, level, kind]
    exact EReal.neg_bot.symm
  · rw [level_of_holds holds, level_of_holds (holds_neg holds), EReal.coe_neg]

/-- Every real double is a whole number of the smallest units. -/
theorem exists_units (holds : Holds (unpacked a) x) : ∃ n : ℤ, x = n * 2 ^ (-1074 : ℤ) := by
  have regular := regular_unpacked a
  generalize unpacked a = u at holds regular
  cases u with
  | notANumber => exact holds.elim
  | infinity sign => exact holds.elim
  | zero sign => exact ⟨0, by rw [show x = 0 from holds]; norm_num⟩
  | finite sign mantissa exponent positive =>
    have shift : exponent = ((exponent + 1074).toNat : ℤ) + -1074 := by
      have := regular.above
      omega
    have value : (mantissa : ℝ) * 2 ^ exponent =
        ((mantissa * 2 ^ (exponent + 1074).toNat : ℤ) : ℝ) * 2 ^ (-1074 : ℤ) := by
      conv_lhs => rw [shift, zpow_add₀ (by norm_num), zpow_natCast]
      push_cast
      ring
    cases sign with
    | positive => exact ⟨_, holds.trans value⟩
    | negative =>
      refine ⟨-(mantissa * 2 ^ (exponent + 1074).toNat : ℤ), ?_⟩
      rw [show x = -(mantissa * 2 ^ exponent) from holds, value]
      push_cast
      ring

/-- The smallest units do not vanish in rounding. -/
theorem nearest_pos_iff {n : ℤ} (units : x = n * 2 ^ (-1074 : ℤ)) : 0 < nearest x ↔ 0 < x := by
  constructor
  · intro above
    by_contra notAbove
    have := nearest_mono (not_lt.mp notAbove)
    rw [nearest_zero] at this
    exact absurd above this.not_gt
  · intro above
    have some : 1 ≤ n := by
      by_contra none
      have : (n : ℝ) ≤ 0 := by exact_mod_cast (by omega : n ≤ 0)
      have : x ≤ 0 := by
        rw [units]
        exact mul_nonpos_of_nonpos_of_nonneg this (by positivity)
      linarith
    have stored : Stored 1 (-1074) := ⟨by norm_num, le_rfl, Or.inr rfl⟩
    have unit := nearest_of_stored .positive stored (by norm_num)
    have least : signed .positive ((1 : ℕ) * 2 ^ (-1074 : ℤ)) ≤ x := by
      rw [units]
      refine mul_le_mul_of_nonneg_right ?_ (by positivity)
      exact_mod_cast some
    refine lt_of_lt_of_le ?_ (nearest_mono least)
    rw [unit]
    exact_mod_cast (by positivity : (0 : ℝ) < (1 : ℕ) * 2 ^ (-1074 : ℤ))

/-- **A difference is positive when the numbers differ.** -/
theorem sub_pos_iff : Float.ofNat 0 < a - b ↔ b < a := by
  have zeroNumber : (Float.ofNat 0).isNaN = false :=
    isNaN_eq_false (by rw [level_zero]; exact EReal.zero_ne_bot)
  have left : Float.ofNat 0 < a - b ↔ 0 < level (a - b) := by
    rw [lt_iff, level_zero]
    refine ⟨fun both => both.2.2, fun above => ⟨zeroNumber, ?_, above⟩⟩
    exact isNaN_eq_false (lt_of_le_of_lt bot_le above).ne'
  rw [left, lt_iff, sub_eq_add_neg]
  rcases kinds (unpacked b) with kind | kind | kind | ⟨y, holds⟩
  · rw [level_add_nan (by rw [unpacked_neg, kind]; rfl), (isNaN_iff b).mpr kind]
    simp
  · rw [level_add_bottom (by rw [unpacked_neg, kind]; rfl)]
    simp [level, kind, place]
  · rw [level_add_top (by rw [unpacked_neg, kind]; rfl)]
    have lowest : level b = ⊥ := by rw [level, kind]; rfl
    have number : b.isNaN = false := (number_iff b).mpr (by rw [kind]; simp)
    rw [lowest]
    by_cases none : level a = ⊥
    · rw [if_pos none, none]
      simp
    · rw [if_neg none]
      exact ⟨fun _ => ⟨number, isNaN_eq_false none, bot_lt_iff_ne_bot.mpr none⟩,
        fun _ => EReal.zero_lt_top⟩
  · rw [level_add (holds_neg holds), level_of_holds holds]
    have number : b.isNaN = false :=
      isNaN_eq_false (by rw [level_of_holds holds]; exact EReal.coe_ne_bot y)
    rcases kinds (unpacked a) with kind | kind | kind | ⟨x, real⟩
    · rw [level, kind]
      simp [place, stretch_bot]
    · have number' : a.isNaN = false := (number_iff a).mpr (by rw [kind]; simp)
      rw [level, kind, show place (.infinity .positive) = ⊤ from rfl, stretch_top]
      exact ⟨fun _ => ⟨number, number', EReal.coe_lt_top y⟩, fun _ => EReal.zero_lt_top⟩
    · rw [level, kind]
      simp [place, stretch_bot]
    · have number' : a.isNaN = false :=
        isNaN_eq_false (by rw [level_of_holds real]; exact EReal.coe_ne_bot x)
      obtain ⟨m, units⟩ := exists_units holds
      obtain ⟨n, units'⟩ := exists_units real
      have difference : x + -y = (n - m : ℤ) * 2 ^ (-1074 : ℤ) := by
        rw [units, units']
        push_cast
        ring
      rw [level_of_holds real, stretch_coe, nearest_pos_iff difference, EReal.coe_lt_coe_iff]
      exact ⟨fun above => ⟨number, number', by linarith⟩, fun all => by linarith [all.2.2]⟩

/-- A number further to the left is not nearer. -/
theorem sub_le_sub (le : b ≤ c) (less : c < a) : a - c ≤ a - b := by
  obtain ⟨number, number', below⟩ := le_iff.mp le
  have first := sub_pos_iff.mpr less
  have second : Float.ofNat 0 < a - b := by
    obtain ⟨-, numberA, above⟩ := lt_iff.mp less
    exact sub_pos_iff.mpr (lt_iff.mpr ⟨number, numberA, lt_of_le_of_lt below above⟩)
  refine le_iff.mpr ⟨(lt_iff.mp first).2.1, (lt_iff.mp second).2.1, ?_⟩
  rw [sub_eq_add_neg, sub_eq_add_neg, add_comm, add_comm a]
  refine level_add_mono ?_
  rw [level_neg number, level_neg number']
  exact EReal.neg_le_neg_iff.mpr below

/-! ### Rounding to whole numbers -/

/-- The nearest whole number, a half going away from zero. -/
def halfAway (x : ℝ) : ℤ := if 0 ≤ x then ⌊x + 1 / 2⌋ else -⌊-x + 1 / 2⌋

theorem halfAway_mono : Monotone halfAway := by
  intro x y le
  unfold halfAway
  split_ifs with nonneg nonneg'
  · exact Int.floor_mono (by linarith)
  · exact absurd (nonneg.trans le) nonneg'
  · have : 0 ≤ ⌊-x + 1 / 2⌋ := Int.floor_nonneg.mpr (by linarith)
    have : 0 ≤ ⌊y + 1 / 2⌋ := Int.floor_nonneg.mpr (by linarith)
    omega
  · exact neg_le_neg (Int.floor_mono (by linarith))

theorem halfAway_intCast (n : ℤ) : halfAway n = n := by
  have half : ∀ m : ℤ, ⌊(m : ℝ) + 1 / 2⌋ = m := by
    intro m
    rw [Int.floor_eq_iff]
    constructor <;> linarith
  unfold halfAway
  split_ifs
  · exact half n
  · have := half (-n)
    push_cast at this
    rw [this, neg_neg]

theorem halfAway_neg (x : ℝ) (positive : 0 < x) : halfAway (-x) = -halfAway x := by
  unfold halfAway
  rw [if_neg (by linarith), if_pos positive.le, neg_neg]

/-- The whole number of units is the nearest one. -/
theorem wholeUnits_eq (m : Decimal.Magnitude) (fine : m.exponent < 0) :
    halfAway (m.units * 2 ^ m.exponent) = m.wholeUnits := by
  have shift : m.exponent = -((-m.exponent).toNat : ℤ) := by omega
  have value : (m.units : ℝ) * 2 ^ m.exponent + 1 / 2 =
      ((2 * m.units + 2 ^ (-m.exponent).toNat : ℕ) : ℝ) / (2 ^ ((-m.exponent).toNat + 1) : ℕ) := by
    conv_lhs => rw [shift, zpow_neg, zpow_natCast]
    push_cast
    rw [pow_succ]
    field_simp
  unfold halfAway
  rw [if_pos (by positivity), value, Int.floor_div_natCast, Int.floor_natCast]
  rfl

theorem wholeUnits_lt {m : Decimal.Magnitude} (small : m.units < 2 ^ 53) (fine : m.exponent < 0) :
    m.wholeUnits < 2 ^ 53 := by
  have half : 2 ≤ 2 ^ (-m.exponent).toNat :=
    le_self_pow₀ (by norm_num) (by omega)
  have double : Nat.pow 2 ((-m.exponent).toNat + 1) = 2 * 2 ^ (-m.exponent).toNat := by
    rw [Nat.pow_eq, pow_succ, mul_comm]
  show (2 * m.units + 2 ^ (-m.exponent).toNat) / Nat.pow 2 ((-m.exponent).toNat + 1) < 2 ^ 53
  rw [double, Nat.div_lt_iff_lt_mul (by positivity)]
  omega

/-- The rounding of doubles moves along the extended line. -/
theorem level_round (a : Float) :
    level (roundHalfAway a) = stretch (fun x => ((halfAway x : ℝ) : EReal)) (level a) := by
  have kind := Decimal.unpacks_ofFloat a
  have regular := regular_unpacked a
  have kept : ∀ n : ℤ, level a = ((n : ℝ) : EReal) →
      level a = stretch (fun x => ((halfAway x : ℝ) : EReal)) (level a) := by
    intro n whole
    rw [whole, stretch_coe, halfAway_intCast]
  unfold roundHalfAway
  cases form : Decimal.Double.ofFloat a with
  | nan =>
    rw [form] at kind
    show level a = _
    rw [level, show unpacked a = _ from kind]
    exact stretch_bot.symm
  | infinite negative =>
    rw [form] at kind
    show level a = _
    rw [level, show unpacked a = _ from kind]
    cases negative
    · exact stretch_top.symm
    · exact stretch_bot.symm
  | zero negative =>
    rw [form] at kind
    refine kept 0 ?_
    rw [level, show unpacked a = _ from kind, Int.cast_zero]
    rfl
  | finite negative m =>
    rw [form] at kind
    obtain ⟨positive, finite⟩ := kind
    have stored : Stored m.units m.exponent := by rwa [finite] at regular
    have real : level a = ((signed (Decimal.signOfNegative negative) (m.units * 2 ^ m.exponent) : ℝ) :
        EReal) := by
      rw [level, finite]
      rfl
    simp only
    split_ifs with whole minus
    · have power : (m.units : ℝ) * 2 ^ m.exponent = ((m.units * 2 ^ m.exponent.toNat : ℤ) : ℝ) := by
        conv_lhs => rw [show m.exponent = (m.exponent.toNat : ℤ) by omega, zpow_natCast]
        push_cast
        rfl
      rw [power] at real
      cases negative with
      | false => exact kept _ real
      | true =>
        refine kept (-(m.units * 2 ^ m.exponent.toNat : ℤ)) ?_
        rw [real, Int.cast_neg]
        rfl
    · have small := wholeUnits_lt stored.below (not_le.mp whole)
      have rounds : level (Float.ofNat m.wholeUnits) = ((m.wholeUnits : ℝ) : EReal) := by
        rw [level_ofNat, nearest_natCast small]
        rfl
      have number : (Float.ofNat m.wholeUnits).isNaN = false :=
        isNaN_eq_false (by rw [rounds]; exact EReal.coe_ne_bot _)
      subst minus
      rw [level_neg number, rounds, real, stretch_coe]
      show _ = ((halfAway (-(m.units * 2 ^ m.exponent)) : ℝ) : EReal)
      rw [halfAway_neg _ (by positivity), wholeUnits_eq m (not_le.mp whole)]
      push_cast
      rfl
    · have small := wholeUnits_lt stored.below (not_le.mp whole)
      rw [Bool.not_eq_true] at minus
      subst minus
      rw [level_ofNat, nearest_natCast small, real, stretch_coe]
      show _ = ((halfAway (m.units * 2 ^ m.exponent) : ℝ) : EReal)
      rw [wholeUnits_eq m (not_le.mp whole)]
      push_cast
      rfl

theorem level_round_mono (le : level a ≤ level b) :
    level (roundHalfAway a) ≤ level (roundHalfAway b) := by
  rw [level_round, level_round]
  refine stretch_mono (fun x y less => ?_) le
  exact_mod_cast halfAway_mono less

end

end Easing.Binary64
