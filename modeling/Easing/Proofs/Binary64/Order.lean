/-
**Doubles on the extended line.**

Every double has a place on the extended line (`level`), NaN sharing the lowest one. Reals are
rounded to places of doubles (`nearest`), a great real to an infinite one.

* `nearest_mono`: rounding to doubles keeps the order.
* `place_pack_of_standsFor`: a float that stands for a rounded real is packed to that place.
* `le_iff`, `lt_iff`, `beq_iff`: numbers are compared by their places.
-/
import Easing.Proofs.Binary64.Rounding

namespace Easing.Binary64

open Float.Model.UnpackedFloat
open Float.Model (UnpackedFloat)

noncomputable section

/-! ### Places -/

/-- A real with the sign of a double. -/
def signed (sign : Sign) (x : ℝ) : ℝ :=
  match sign with
  | .positive => x
  | .negative => -x

/-- The place of an unpacked float on the extended line. -/
def place : UnpackedFloat → EReal
  | .notANumber => ⊥
  | .infinity .positive => ⊤
  | .infinity .negative => ⊥
  | .zero _ => 0
  | .finite sign mantissa exponent _ => (signed sign (mantissa * 2 ^ exponent) : ℝ)

/-- What a double unpacks to. -/
def unpacked (a : Float) : UnpackedFloat := a.toModel.unpack

/-- The place of a double on the extended line. -/
def level (a : Float) : EReal := place (unpacked a)

/-- The unpacked float is the given real. -/
def Holds (u : UnpackedFloat) (x : ℝ) : Prop :=
  match u with
  | .zero _ => x = 0
  | .finite sign mantissa exponent _ => x = signed sign (mantissa * 2 ^ exponent)
  | _ => False

theorem place_of_holds {u : UnpackedFloat} {x : ℝ} (holds : Holds u x) : place u = x := by
  cases u with
  | notANumber => exact holds.elim
  | infinity sign => exact holds.elim
  | zero sign =>
    rw [show x = 0 from holds]
    rfl
  | finite sign mantissa exponent positive =>
    rw [show x = _ from holds]
    rfl

/-- An unpacked float is NaN, infinite, or a real. -/
theorem kinds (u : UnpackedFloat) :
    u = .notANumber ∨ u = .infinity .positive ∨ u = .infinity .negative ∨ ∃ x, Holds u x := by
  cases u with
  | notANumber => exact Or.inl rfl
  | infinity sign =>
    cases sign
    · exact Or.inr (Or.inr (Or.inl rfl))
    · exact Or.inr (Or.inl rfl)
  | zero sign => exact Or.inr (Or.inr (Or.inr ⟨0, rfl⟩))
  | finite sign mantissa exponent positive => exact Or.inr (Or.inr (Or.inr ⟨_, rfl⟩))

theorem regular_unpacked (a : Float) : Regular (unpacked a) := (regular_unpack _).1

theorem saturate_unpacked (a : Float) : saturate (unpacked a) = unpacked a := (regular_unpack _).2

/-! ### Rounding to doubles -/

/-- A real that is too great becomes infinite. -/
def clip (x : ℝ) : EReal := if x < 2 ^ (1024 : ℤ) then x else ⊤

/-- The double nearest to a real, as a place on the extended line. -/
def nearest (x : ℝ) : EReal := if 0 ≤ x then clip (rounded x) else -clip (rounded (-x))

theorem clip_mono {x y : ℝ} (le : x ≤ y) : clip x ≤ clip y := by
  unfold clip
  split_ifs with small great
  · exact EReal.coe_le_coe le
  · exact le_top
  · exact absurd (le.trans_lt ‹_›) small
  · exact le_rfl

theorem clip_nonneg {x : ℝ} (nonneg : 0 ≤ x) : 0 ≤ clip x := by
  unfold clip
  split_ifs
  · exact_mod_cast nonneg
  · exact le_top

theorem clip_zero : clip 0 = 0 := by
  unfold clip
  rw [if_pos (by positivity)]
  rfl

theorem nearest_of_nonneg {x : ℝ} (nonneg : 0 ≤ x) : nearest x = clip (rounded x) := if_pos nonneg

theorem nearest_zero : nearest 0 = 0 := by
  rw [nearest_of_nonneg le_rfl, rounded_zero, clip_zero]

theorem nearest_neg (x : ℝ) : nearest (-x) = -nearest x := by
  rcases lt_trichotomy x 0 with negative | rfl | positive
  · rw [nearest_of_nonneg (by linarith), nearest, if_neg negative.not_ge, neg_neg]
  · rw [neg_zero, nearest_zero, neg_zero]
  · rw [nearest_of_nonneg positive.le, nearest, if_neg (by linarith), neg_neg]

theorem nearest_nonneg {x : ℝ} (nonneg : 0 ≤ x) : 0 ≤ nearest x := by
  rw [nearest_of_nonneg nonneg]
  exact clip_nonneg (rounded_nonneg nonneg)

/-- **Rounding to doubles keeps the order.** -/
theorem nearest_mono : Monotone nearest := by
  intro x y le
  have ofNonneg : ∀ {x y : ℝ}, 0 ≤ x → x ≤ y → nearest x ≤ nearest y := by
    intro x y nonneg le
    rw [nearest_of_nonneg nonneg, nearest_of_nonneg (nonneg.trans le)]
    exact clip_mono (rounded_mono nonneg le)
  rcases le_total 0 x with nonneg | nonpos
  · exact ofNonneg nonneg le
  rcases le_total 0 y with nonneg | nonpos'
  · calc nearest x = -nearest (-x) := by rw [nearest_neg, neg_neg]
      _ ≤ 0 := EReal.neg_le_zero.mpr (nearest_nonneg (by linarith))
      _ ≤ nearest y := nearest_nonneg nonneg
  · have := ofNonneg (x := -y) (y := -x) (by linarith) (by linarith)
    rwa [nearest_neg, nearest_neg, EReal.neg_le_neg_iff] at this

/-- Doubles with an exponent up to the greatest one lie below the limit. -/
theorem Stored.lt_limit {mantissa : ℕ} {exponent : ℤ} (stored : Stored mantissa exponent)
    (small : exponent ≤ 971) : (mantissa : ℝ) * 2 ^ exponent < 2 ^ (1024 : ℤ) :=
  calc (mantissa : ℝ) * 2 ^ exponent < 2 ^ (53 : ℤ) * 2 ^ exponent := by
        refine mul_lt_mul_of_pos_right ?_ (by positivity)
        exact_mod_cast stored.below
    _ = 2 ^ (53 + exponent) := (zpow_add₀ (by norm_num) _ _).symm
    _ ≤ 2 ^ (1024 : ℤ) := zpow_le_zpow_right₀ (by norm_num) (by omega)

/-- With a greater exponent they would not. -/
theorem Stored.limit_le {mantissa : ℕ} {exponent : ℤ} (stored : Stored mantissa exponent)
    (great : ¬exponent ≤ 971) : 2 ^ (1024 : ℤ) ≤ (mantissa : ℝ) * 2 ^ exponent := by
  have full : 2 ^ 52 ≤ mantissa := by
    rcases stored.full with full | least <;> omega
  calc (2 : ℝ) ^ (1024 : ℤ) ≤ 2 ^ (52 + exponent) :=
        zpow_le_zpow_right₀ (by norm_num) (by omega)
    _ = 2 ^ (52 : ℤ) * 2 ^ exponent := zpow_add₀ (by norm_num) _ _
    _ ≤ mantissa * 2 ^ exponent := by
        refine mul_le_mul_of_nonneg_right ?_ (by positivity)
        exact_mod_cast full

/-- What a double stores is rounded to itself. -/
theorem nearest_of_stored (sign : Sign) {mantissa : ℕ} {exponent : ℤ}
    (stored : Stored mantissa exponent) (small : exponent ≤ 971) :
    nearest (signed sign (mantissa * 2 ^ exponent)) = signed sign (mantissa * 2 ^ exponent) := by
  have ofPositive : nearest (mantissa * 2 ^ exponent) = (mantissa * 2 ^ exponent : ℝ) := by
    rw [nearest_of_nonneg (by positivity), rounded_stored stored, clip,
      if_pos (stored.lt_limit small)]
  cases sign with
  | positive => exact ofPositive
  | negative =>
    show nearest (-_) = ((-_ : ℝ) : EReal)
    rw [nearest_neg, ofPositive, EReal.coe_neg]

/-- A real that a double holds is rounded to itself. -/
theorem nearest_of_holds {a : Float} {x : ℝ} (holds : Holds (unpacked a) x) : nearest x = x := by
  have regular := regular_unpacked a
  have saturated := saturate_unpacked a
  cases unpack : unpacked a with
  | notANumber => rw [unpack] at holds; exact holds.elim
  | infinity sign => rw [unpack] at holds; exact holds.elim
  | zero sign =>
    rw [unpack] at holds
    rw [show x = 0 from holds, nearest_zero]
    rfl
  | finite sign mantissa exponent positive =>
    rw [unpack] at holds regular saturated
    have small : exponent ≤ 971 := by
      by_contra great
      simp only [saturate, if_neg great, reduceCtorEq] at saturated
    rw [show x = _ from holds]
    exact nearest_of_stored sign regular small

/-- A float that stands for a rounded real is packed to the place nearest to it. -/
theorem place_pack_of_standsFor (sign : Sign) {x : ℝ} {u : UnpackedFloat} (nonneg : 0 ≤ x)
    (stands : StandsFor sign (rounded x) u) :
    place (Float.Model.pack u).unpack = nearest (signed sign x) := by
  cases u with
  | notANumber => exact stands.elim
  | infinity other => exact stands.elim
  | zero other =>
    obtain ⟨rfl, zero⟩ := stands
    rw [unpack_pack (u := .zero other) trivial]
    cases other with
    | positive =>
      show 0 = nearest x
      rw [nearest_of_nonneg nonneg, zero, clip_zero]
    | negative =>
      show 0 = nearest (-x)
      rw [nearest_neg, nearest_of_nonneg nonneg, zero, clip_zero, neg_zero]
  | finite other mantissa exponent positive =>
    obtain ⟨rfl, stored, value⟩ := stands
    rw [unpack_pack (u := .finite other mantissa exponent positive) stored]
    have clipped : clip (rounded x) =
        place (saturate (.finite .positive mantissa exponent positive)) := by
      rw [← value]
      by_cases small : exponent ≤ 971
      · simp only [clip, saturate, if_pos small, if_pos (stored.lt_limit small)]
        rfl
      · simp only [clip, saturate, if_neg small, if_neg (stored.limit_le small).not_gt]
        rfl
    cases other with
    | positive =>
      show _ = nearest x
      rw [nearest_of_nonneg nonneg, clipped]
    | negative =>
      show _ = nearest (-x)
      rw [nearest_neg, nearest_of_nonneg nonneg, clipped]
      by_cases small : exponent ≤ 971
      · simp only [saturate, if_pos small]
        exact EReal.coe_neg _
      · simp only [saturate, if_neg small]
        rfl

/-! ### Comparisons -/

/-- A double of a greater exponent is greater. -/
theorem Stored.lt_of_exponent_lt {m m' : ℕ} {e e' : ℤ} (stored : Stored m e)
    (stored' : Stored m' e') (lt : e < e') : (m : ℝ) * 2 ^ e < m' * 2 ^ e' := by
  have full : 2 ^ 52 ≤ m' := by
    have := stored.above
    rcases stored'.full with full | least <;> omega
  calc (m : ℝ) * 2 ^ e < 2 ^ (53 : ℤ) * 2 ^ e := by
        refine mul_lt_mul_of_pos_right ?_ (by positivity)
        exact_mod_cast stored.below
    _ = 2 ^ (53 + e) := (zpow_add₀ (by norm_num) _ _).symm
    _ ≤ 2 ^ (52 + e') := zpow_le_zpow_right₀ (by norm_num) (by omega)
    _ = 2 ^ (52 : ℤ) * 2 ^ e' := zpow_add₀ (by norm_num) _ _
    _ ≤ m' * 2 ^ e' := by
        refine mul_le_mul_of_nonneg_right ?_ (by positivity)
        exact_mod_cast full

/-- Exponents first, mantissas second: this is the order of the values. -/
theorem Stored.compare_eq {m m' : ℕ} {e e' : ℤ} (stored : Stored m e) (stored' : Stored m' e') :
    (compare e e').then (compare m m') = compare ((m : ℝ) * 2 ^ e) (m' * 2 ^ e') := by
  rcases lt_trichotomy e e' with lt | rfl | gt
  · rw [compare_lt_iff_lt.mpr lt, compare_lt_iff_lt.mpr (stored.lt_of_exponent_lt stored' lt)]
    rfl
  · have positive : (0 : ℝ) < 2 ^ e := by positivity
    rw [compare_eq_iff_eq.mpr (rfl : e = e)]
    rcases lt_trichotomy m m' with lt | rfl | gt
    · have : (m : ℝ) < m' := by exact_mod_cast lt
      rw [compare_lt_iff_lt.mpr lt, compare_lt_iff_lt.mpr (mul_lt_mul_of_pos_right this positive)]
      rfl
    · rw [compare_eq_iff_eq.mpr rfl, compare_eq_iff_eq.mpr rfl]
      rfl
    · have : (m' : ℝ) < m := by exact_mod_cast gt
      rw [compare_gt_iff_gt.mpr gt, compare_gt_iff_gt.mpr (mul_lt_mul_of_pos_right this positive)]
      rfl
  · rw [compare_gt_iff_gt.mpr gt, compare_gt_iff_gt.mpr (stored'.lt_of_exponent_lt stored gt)]
    rfl

theorem compare_coe (x y : ℝ) : compare (x : EReal) y = compare x y := by
  rcases lt_trichotomy x y with lt | rfl | gt
  · rw [compare_lt_iff_lt.mpr lt, compare_lt_iff_lt.mpr (EReal.coe_lt_coe lt)]
  · rw [compare_eq_iff_eq.mpr rfl, compare_eq_iff_eq.mpr rfl]
  · rw [compare_gt_iff_gt.mpr gt, compare_gt_iff_gt.mpr (EReal.coe_lt_coe gt)]

theorem compare_neg (x y : ℝ) : compare (-x) (-y) = (compare x y).swap := by
  rcases lt_trichotomy x y with lt | rfl | gt
  · rw [compare_lt_iff_lt.mpr lt, compare_gt_iff_gt.mpr (neg_lt_neg lt)]
    rfl
  · rw [compare_eq_iff_eq.mpr rfl, compare_eq_iff_eq.mpr rfl]
    rfl
  · rw [compare_gt_iff_gt.mpr gt, compare_lt_iff_lt.mpr (neg_lt_neg gt)]
    rfl

/-- Numbers are compared by their places. -/
theorem compare_eq {u v : UnpackedFloat} (regular : Regular u) (regular' : Regular v)
    (number : u ≠ .notANumber) (number' : v ≠ .notANumber) :
    u.compare v = some (compare (place u) (place v)) := by
  have lt : ∀ {a b : EReal}, a < b → some Ordering.lt = some (compare a b) :=
    fun below => congrArg some (compare_lt_iff_lt.mpr below).symm
  have gt : ∀ {a b : EReal}, b < a → some Ordering.gt = some (compare a b) :=
    fun above => congrArg some (compare_gt_iff_gt.mpr above).symm
  have eq : ∀ {a b : EReal}, a = b → some Ordering.eq = some (compare a b) :=
    fun same => congrArg some (compare_eq_iff_eq.mpr same).symm
  have above : ∀ {m : ℕ} {e : ℤ}, 0 < m → (0 : EReal) < ((m * 2 ^ e : ℝ) : EReal) := by
    intro m e positive
    exact_mod_cast (by positivity : (0 : ℝ) < m * 2 ^ e)
  have below : ∀ {m : ℕ} {e : ℤ}, 0 < m → ((-(m * 2 ^ e) : ℝ) : EReal) < 0 := by
    intro m e positive
    exact_mod_cast (by rw [Left.neg_neg_iff]; positivity : -((m : ℝ) * 2 ^ e) < 0)
  cases u with
  | notANumber => exact absurd rfl number
  | infinity sign =>
    cases v with
    | notANumber => exact absurd rfl number'
    | infinity sign' =>
      cases sign <;> cases sign'
      · exact eq rfl
      · exact lt bot_lt_top
      · exact gt bot_lt_top
      · exact eq rfl
    | zero sign' =>
      cases sign
      · exact lt EReal.bot_lt_zero
      · exact gt EReal.zero_lt_top
    | finite sign' m' e' positive' =>
      cases sign
      · exact lt (EReal.bot_lt_coe _)
      · exact gt (EReal.coe_lt_top _)
  | zero sign =>
    cases v with
    | notANumber => exact absurd rfl number'
    | infinity sign' =>
      cases sign'
      · exact gt EReal.bot_lt_zero
      · exact lt EReal.zero_lt_top
    | zero sign' => exact eq rfl
    | finite sign' m' e' positive' =>
      cases sign'
      · exact gt (below positive')
      · exact lt (above positive')
  | finite sign m e positive =>
    cases v with
    | notANumber => exact absurd rfl number'
    | infinity sign' =>
      cases sign'
      · exact gt (EReal.bot_lt_coe _)
      · exact lt (EReal.coe_lt_top _)
    | zero sign' =>
      cases sign
      · exact lt (below positive)
      · exact gt (above positive)
    | finite sign' m' e' positive' =>
      cases sign <;> cases sign'
      · show some ((compare e e').then (compare m m')).swap =
          some (compare ((-(m * 2 ^ e) : ℝ) : EReal) (-(m' * 2 ^ e') : ℝ))
        rw [compare_coe, compare_neg, Stored.compare_eq regular regular']
      · exact lt ((below positive).trans (above positive'))
      · exact gt ((below positive').trans (above positive))
      · show some ((compare e e').then (compare m m')) =
          some (compare ((m * 2 ^ e : ℝ) : EReal) (m' * 2 ^ e' : ℝ))
        rw [compare_coe, Stored.compare_eq regular regular']

theorem isNaN_iff (a : Float) : a.isNaN = true ↔ unpacked a = .notANumber := by
  show (unpacked a).isNaN = true ↔ _
  cases unpacked a <;> simp [UnpackedFloat.isNaN]

theorem number_iff (a : Float) : a.isNaN = false ↔ unpacked a ≠ .notANumber := by
  rw [ne_eq, ← isNaN_iff, Bool.not_eq_true]

/-- The comparison of doubles, with no answer for NaN. -/
theorem compare_unpacked (a b : Float) :
    (unpacked a).compare (unpacked b) =
      if a.isNaN ∨ b.isNaN then none else some (compare (level a) (level b)) := by
  split_ifs with some
  · rcases some with first | second
    · rw [(isNaN_iff a).mp first]
      rfl
    · rw [(isNaN_iff b).mp second]
      cases unpacked a <;> rfl
  · rw [not_or, isNaN_iff, isNaN_iff] at some
    exact compare_eq (regular_unpacked a) (regular_unpacked b) some.1 some.2

theorem le_iff {a b : Float} : a ≤ b ↔ a.isNaN = false ∧ b.isNaN = false ∧ level a ≤ level b := by
  refine decide_eq_true_iff.trans ?_
  show ((unpacked a).compare (unpacked b)).any (·.isLE) = true ↔ _
  rw [compare_unpacked]
  cases a.isNaN <;> cases b.isNaN <;> simp [Ordering.isLE_iff_ne_gt, compare_gt_iff_gt]

theorem lt_iff {a b : Float} : a < b ↔ a.isNaN = false ∧ b.isNaN = false ∧ level a < level b := by
  refine decide_eq_true_iff.trans ?_
  show ((unpacked a).compare (unpacked b) == some .lt) = true ↔ _
  rw [compare_unpacked]
  cases a.isNaN <;> cases b.isNaN <;> simp [compare_lt_iff_lt]

theorem beq_iff {a b : Float} :
    (a == b) = true ↔ a.isNaN = false ∧ b.isNaN = false ∧ level a = level b := by
  show ((unpacked a).compare (unpacked b) == some .eq) = true ↔ _
  rw [compare_unpacked]
  cases a.isNaN <;> cases b.isNaN <;> simp

end

end Easing.Binary64
