/-
**Doubles are scalars in order.**

Snapping to the lines of a grid is made of operations that keep the order, but for the grids whose
lines are infinitely far apart or infinitely many.

* the instance `OrderedScalar Float`.
* `below_of_level`: a coordinate counts as less when its place is lower.
* `level_snap_mono`: snapping keeps the order of coordinates, on every grid.
-/
import Easing.Handle
import Easing.Proofs.Binary64.Monotone
import Easing.Proofs.Scalar.Order

namespace Easing.Binary64

open Float.Model.UnpackedFloat
open Float.Model (UnpackedFloat)

noncomputable section

variable {a b c : Float}

/-! ### Doubles as ordered scalars -/

instance : OrderedScalar Float where
  le_trans first second := by
    obtain ⟨number, -, below⟩ := le_iff.mp first
    obtain ⟨-, number', below'⟩ := le_iff.mp second
    exact le_iff.mpr ⟨number, number', below.trans below'⟩
  le_total {a b} number number' := by
    rcases le_total (level a) (level b) with below | above
    · exact Or.inl (le_iff.mpr ⟨number, number', below⟩)
    · exact Or.inr (le_iff.mpr ⟨number', number, above⟩)
  lt_iff {a b} := by
    rw [lt_iff, le_iff, le_iff]
    constructor
    · rintro ⟨number, number', below⟩
      exact ⟨⟨number, number', below.le⟩, fun above => above.2.2.not_gt below⟩
    · rintro ⟨⟨number, number', -⟩, notAbove⟩
      exact ⟨number, number', not_le.mp fun above => notAbove ⟨number', number, above⟩⟩
  isNumber_of_le le := ⟨(le_iff.mp le).1, (le_iff.mp le).2.1⟩
  beq_iff {a b} := by
    rw [beq_iff, le_iff, le_iff]
    constructor
    · rintro ⟨number, number', same⟩
      exact ⟨⟨number, number', same.le⟩, ⟨number', number, same.ge⟩⟩
    · rintro ⟨⟨number, number', below⟩, -, -, above⟩
      exact ⟨number, number', below.antisymm above⟩
  isNumber_zero := isNaN_eq_false (a := Float.ofNat 0) (by rw [level_zero]; exact EReal.zero_ne_bot)
  sub_pos_iff := sub_pos_iff
  sub_le_sub := sub_le_sub

/-- NaN has the lowest place. -/
theorem level_of_isNaN (none : a.isNaN = true) : level a = ⊥ := by
  rw [level, (isNaN_iff a).mp none]
  rfl

/-- A coordinate of a lower place counts as less. -/
theorem below_of_level (le : level a ≤ level b) : Scalar.Below a b := by
  cases number : a.isNaN with
  | true => exact Scalar.Below.of_isNaN number
  | false =>
    cases number' : b.isNaN with
    | false => exact Scalar.Below.of_le (le_iff.mpr ⟨number, number', le⟩)
    | true =>
      intro low isNumber
      rw [level_of_isNaN number', le_bot_iff] at le
      rw [Scalar.greater_of_isNaN (a := b) number']
      refine Scalar.greater_le (le_iff.mpr ⟨number, isNumber, ?_⟩) (Scalar.le_self isNumber)
      rw [le]
      exact bot_le

/-! ### Snapping -/

/-- A double above zero is infinite or holds a positive real. -/
theorem positive_kinds (above : 0 < level c) :
    unpacked c = .infinity .positive ∨ ∃ y, Holds (unpacked c) y ∧ 0 < y := by
  rcases kinds (unpacked c) with kind | kind | kind | ⟨y, holds⟩
  · rw [level, kind] at above
    exact absurd above (by simp [place])
  · exact Or.inl kind
  · rw [level, kind] at above
    exact absurd above (by simp [place])
  · rw [level_of_holds holds] at above
    exact Or.inr ⟨y, holds, by exact_mod_cast above⟩

theorem level_ofNat_pos {n : ℕ} (nonzero : n ≠ 0) : 0 < level (Float.ofNat n) := by
  have one : nearest (1 : ℕ) = ((1 : ℕ) : EReal) := nearest_natCast (by norm_num)
  have le : ((1 : ℕ) : ℝ) ≤ n := by exact_mod_cast Nat.one_le_iff_ne_zero.mpr nonzero
  rw [level_ofNat]
  refine lt_of_lt_of_le ?_ (nearest_mono le)
  rw [one, Nat.cast_one]
  exact one_pos

/-- What is packed without rounding unpacks to itself. -/
theorem unpack_pack_of_kept {u : UnpackedFloat} (regular : Regular u) (kept : saturate u = u) :
    (Float.Model.pack u).unpack = u := (unpack_pack regular).trans kept

/-- NaN or zero. -/
def Vanishes (u : UnpackedFloat) : Prop :=
  match u with
  | .notANumber => True
  | .zero _ => True
  | _ => False

/-- NaN or infinite. -/
def Explodes (u : UnpackedFloat) : Prop :=
  match u with
  | .notANumber => True
  | .infinity _ => True
  | _ => False

theorem Vanishes.pack {u : UnpackedFloat} (vanishes : Vanishes u) :
    Vanishes (Float.Model.pack u).unpack := by
  cases u with
  | notANumber => rwa [unpack_pack_of_kept (u := .notANumber) trivial rfl]
  | zero sign => rwa [unpack_pack_of_kept (u := .zero sign) trivial rfl]
  | infinity sign => exact vanishes.elim
  | finite sign mantissa exponent positive => exact vanishes.elim

theorem Explodes.pack {u : UnpackedFloat} (explodes : Explodes u) :
    Explodes (Float.Model.pack u).unpack := by
  cases u with
  | notANumber => rwa [unpack_pack_of_kept (u := .notANumber) trivial rfl]
  | zero sign => exact explodes.elim
  | infinity sign => rwa [unpack_pack_of_kept (u := .infinity sign) trivial rfl]
  | finite sign mantissa exponent positive => exact explodes.elim

/-- Rounding keeps what has no whole part. -/
theorem round_of_vanishes (vanishes : Vanishes (unpacked a)) : roundHalfAway a = a := by
  have kind := Decimal.unpacks_ofFloat a
  unfold roundHalfAway
  cases form : Decimal.Double.ofFloat a with
  | finite negative m =>
    rw [form] at kind
    obtain ⟨positive, finite⟩ := kind
    rw [finite] at vanishes
    exact vanishes.elim
  | _ => rfl

theorem round_of_explodes (explodes : Explodes (unpacked a)) : roundHalfAway a = a := by
  have kind := Decimal.unpacks_ofFloat a
  unfold roundHalfAway
  cases form : Decimal.Double.ofFloat a with
  | finite negative m =>
    rw [form] at kind
    obtain ⟨positive, finite⟩ := kind
    rw [finite] at explodes
    exact explodes.elim
  | _ => rfl

/-- On an infinite domain every coordinate is snapped to NaN. -/
theorem snap_infinite_domain {cells : Float} (domain : unpacked c = .infinity .positive) :
    level (snapCoordinate c cells a) = ⊥ := by
  have quotient : Vanishes (unpacked (a / c)) := by
    refine Vanishes.pack (u := UnpackedFloat.div .binary64 (unpacked a) (unpacked c)) ?_
    rw [domain]
    cases unpacked a <;> trivial
  have product : Vanishes (unpacked (a / c * cells)) := by
    refine Vanishes.pack (u := UnpackedFloat.mul .binary64 (unpacked (a / c)) (unpacked cells)) ?_
    generalize unpacked (a / c) = u at quotient
    cases u with
    | infinity sign => exact quotient.elim
    | finite sign mantissa exponent positive => exact quotient.elim
    | _ => cases unpacked cells <;> trivial
  have snapped : Vanishes (unpacked (a / c * cells / cells)) := by
    refine Vanishes.pack
      (u := UnpackedFloat.div .binary64 (unpacked (a / c * cells)) (unpacked cells)) ?_
    generalize unpacked (a / c * cells) = u at product
    cases u with
    | infinity sign => exact product.elim
    | finite sign mantissa exponent positive => exact product.elim
    | _ => cases unpacked cells <;> trivial
  unfold snapCoordinate
  rw [show Scalar.round (a / c * cells) = a / c * cells from round_of_vanishes product]
  show place (Float.Model.pack
    (UnpackedFloat.mul .binary64 (unpacked (a / c * cells / cells)) (unpacked c))).unpack = ⊥
  rw [domain]
  generalize unpacked (a / c * cells / cells) = u at snapped
  cases u with
  | infinity sign => exact snapped.elim
  | finite sign mantissa exponent positive => exact snapped.elim
  | _ => exact congrArg place (unpack_pack (u := .notANumber) trivial)

/-- With infinitely many cells every coordinate is snapped to NaN. -/
theorem snap_infinite_cells {cells : Float} (infinite : unpacked cells = .infinity .positive) :
    level (snapCoordinate c cells a) = ⊥ := by
  have product : Explodes (unpacked (a / c * cells)) := by
    refine Explodes.pack (u := UnpackedFloat.mul .binary64 (unpacked (a / c)) (unpacked cells)) ?_
    rw [infinite]
    cases unpacked (a / c) <;> trivial
  have none : unpacked (a / c * cells / cells) = .notANumber := by
    show (Float.Model.pack
      (UnpackedFloat.div .binary64 (unpacked (a / c * cells)) (unpacked cells))).unpack = _
    rw [infinite]
    generalize unpacked (a / c * cells) = u at product
    cases u with
    | zero sign => exact product.elim
    | finite sign mantissa exponent positive => exact product.elim
    | _ => exact unpack_pack_of_kept (u := .notANumber) trivial rfl
  unfold snapCoordinate
  rw [show Scalar.round (a / c * cells) = a / c * cells from round_of_explodes product]
  show place (Float.Model.pack
    (UnpackedFloat.mul .binary64 (unpacked (a / c * cells / cells)) (unpacked c))).unpack = ⊥
  rw [none]
  exact congrArg place (unpack_pack (u := .notANumber) trivial)

/-- **Snapping keeps the order of coordinates.** -/
theorem level_snap_mono {cells : Float} (domain : 0 < level c) (above : 0 < level cells)
    (le : level a ≤ level b) :
    level (snapCoordinate c cells a) ≤ level (snapCoordinate c cells b) := by
  rcases positive_kinds domain with infinite | ⟨width, holds, positive⟩
  · rw [snap_infinite_domain infinite]
    exact bot_le
  rcases positive_kinds above with infinite | ⟨count, holds', positive'⟩
  · rw [snap_infinite_cells infinite]
    exact bot_le
  unfold snapCoordinate
  refine level_mul_mono holds positive (level_div_mono holds' positive' ?_)
  exact level_round_mono (level_mul_mono holds' positive' (level_div_mono holds positive le))

end

end Easing.Binary64
