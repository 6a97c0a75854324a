/-
**Laws of scalars: their order, whole numbers and proportions.**

The order of doubles is total on numbers, and NaN is below and above nothing. Zero and minus zero
are alike: each is at most the other. These laws hold of every scalar type that is computed with
(`OrderedScalar`), and they are all that paths and drags need to know.

A script counts with scalars, and it takes a scalar for the place of an entry. Below a limit this is
counting with natural numbers (`Indexing`). How far a place lies between two others is a share of
their distance; no rounding takes it out of the unit interval (`Proportional`).

* `Scalar.Below`: a NaN gives way to any number, so it counts as the least.
* `Scalar.confine`: the value that a moved coordinate is put to, between two bounds;
  `le_confine`, `confine_le` and `confine_mono` say what is needed of it.
-/
import Easing.Scalar
import Mathlib.Algebra.Group.Nat.Defs
import Mathlib.Tactic.Common

set_option linter.unusedSectionVars false

namespace Easing

/-- The scalar is no NaN. -/
def Scalar.IsNumber {α : Type} [Scalar α] (a : α) : Prop := Scalar.isNaN a = false

/-- A scalar type whose order tests and differences agree. -/
class OrderedScalar (α : Type) [Scalar α] : Prop where
  le_trans : ∀ {a b c : α}, a ≤ b → b ≤ c → a ≤ c
  le_total : ∀ {a b : α}, Scalar.IsNumber a → Scalar.IsNumber b → a ≤ b ∨ b ≤ a
  lt_iff : ∀ {a b : α}, a < b ↔ a ≤ b ∧ ¬b ≤ a
  isNumber_of_le : ∀ {a b : α}, a ≤ b → Scalar.IsNumber a ∧ Scalar.IsNumber b
  beq_iff : ∀ {a b : α}, (a == b) = true ↔ a ≤ b ∧ b ≤ a
  isNumber_zero : Scalar.IsNumber (0 : α)
  /-- A difference is positive when the numbers differ, however little. -/
  sub_pos_iff : ∀ {a b : α}, 0 < a - b ↔ b < a
  /-- A number further to the left is not nearer. -/
  sub_le_sub : ∀ {a b c : α}, b ≤ c → c < a → a - c ≤ a - b

namespace Scalar

open OrderedScalar

variable {α : Type} [Scalar α] [OrderedScalar α] {a b c low high low' high' : α}

/-! ### Comparing -/

theorem isNumber_left (le : a ≤ b) : IsNumber a := (isNumber_of_le le).1

theorem isNumber_right (le : a ≤ b) : IsNumber b := (isNumber_of_le le).2

theorem le_self (number : IsNumber a) : a ≤ a := by
  rcases le_total number number with le | le <;> exact le

theorem le_of_lt (lt : a < b) : a ≤ b := (lt_iff.mp lt).1

theorem not_le_of_lt (lt : a < b) : ¬b ≤ a := (lt_iff.mp lt).2

theorem lt_or_le (number : IsNumber a) (number' : IsNumber b) : a < b ∨ b ≤ a := by
  by_cases le : b ≤ a
  · exact Or.inr le
  · exact Or.inl (lt_iff.mpr ⟨(le_total number number').resolve_right le, le⟩)

theorem le_of_not_lt (number : IsNumber a) (number' : IsNumber b) (notLt : ¬a < b) : b ≤ a :=
  (lt_or_le number number').resolve_left notLt

theorem lt_of_le_of_lt (le : a ≤ b) (lt : b < c) : a < c :=
  lt_iff.mpr ⟨le_trans le (le_of_lt lt), fun back => not_le_of_lt lt (le_trans back le)⟩

theorem lt_of_lt_of_le (lt : a < b) (le : b ≤ c) : a < c :=
  lt_iff.mpr ⟨le_trans (le_of_lt lt) le, fun back => not_le_of_lt lt (le_trans le back)⟩

/-- Two numbers that no order test tells apart. -/
def Alike (a b : α) : Prop := a ≤ b ∧ b ≤ a

theorem Alike.symm (alike : Alike a b) : Alike b a := And.symm alike

theorem Alike.refl (number : IsNumber a) : Alike a a := ⟨le_self number, le_self number⟩

theorem Alike.trans (alike : Alike a b) (alike' : Alike b c) : Alike a c :=
  ⟨le_trans alike.1 alike'.1, le_trans alike'.2 alike.2⟩

/-! ### The lesser, the greater, and what lies between -/

theorem greater_of_isNaN (none : isNaN a = true) : greater a low = low := by
  unfold greater
  rw [if_pos none]

theorem isNumber_greater (number : IsNumber low) : IsNumber (greater a low) := by
  unfold greater
  split_ifs with none less
  · exact number
  · exact number
  · exact (Bool.not_eq_true _).mp none

theorem le_greater (number : IsNumber low) : low ≤ greater a low := by
  unfold greater
  split_ifs with none less
  · exact le_self number
  · exact le_self number
  · exact le_of_not_lt ((Bool.not_eq_true _).mp none) number less

theorem self_le_greater (number : IsNumber a) : a ≤ greater a low := by
  unfold greater
  rw [if_neg (Bool.eq_false_iff.mp number)]
  split_ifs with less
  · exact le_of_lt less
  · exact le_self number

theorem greater_le (le : a ≤ c) (le' : low ≤ c) : greater a low ≤ c := by
  unfold greater
  split_ifs
  · exact le'
  · exact le'
  · exact le

theorem lesser_le_right (number : IsNumber a) (number' : IsNumber high) :
    lesser a high ≤ high := by
  unfold lesser
  rw [if_neg (Bool.eq_false_iff.mp number)]
  split_ifs with less
  · exact le_self number'
  · exact le_of_not_lt number' number less

theorem lesser_le_left (number : IsNumber a) : lesser a high ≤ a := by
  unfold lesser
  rw [if_neg (Bool.eq_false_iff.mp number)]
  split_ifs with less
  · exact le_of_lt less
  · exact le_self number

theorem le_lesser (number : IsNumber a) (le : c ≤ a) (le' : c ≤ high) : c ≤ lesser a high := by
  unfold lesser
  rw [if_neg (Bool.eq_false_iff.mp number)]
  split_ifs
  · exact le'
  · exact le

/-- The value of `[low, high]` nearest to a coordinate; `low` for a NaN. -/
def confine (low high a : α) : α := lesser (greater a low) high

theorem le_confine (ordered : low ≤ high) : low ≤ confine low high a :=
  have number := isNumber_left ordered
  le_lesser (isNumber_greater number) (le_greater number) ordered

theorem confine_le (ordered : low ≤ high) : confine low high a ≤ high :=
  lesser_le_right (isNumber_greater (isNumber_left ordered)) (isNumber_right ordered)

/-- A coordinate that is confined to bounds is not greater than another, whatever the bounds. -/
def Below (a b : α) : Prop := ∀ low, IsNumber low → greater a low ≤ greater b low

theorem Below.of_le (le : a ≤ b) : Below a b := by
  intro low number
  have greatest : b ≤ greater b low := self_le_greater (isNumber_right le)
  exact greater_le (le_trans le greatest) (le_greater number)

theorem Below.of_isNaN (none : isNaN a = true) : Below a b := by
  intro low number
  rw [greater_of_isNaN none]
  exact le_greater number

/-- A greater number raises the greater of it and another. -/
theorem greater_mono (le : low ≤ low') : greater a low ≤ greater a low' := by
  have number := isNumber_right le
  cases isNumber : isNaN a with
  | true => rwa [greater_of_isNaN isNumber, greater_of_isNaN isNumber]
  | false => exact greater_le (self_le_greater isNumber) (le_trans le (le_greater number))

/-- Coordinates stay in order when they are confined to the same bounds. -/
theorem confine_mono (below : Below a b) (lowAlike : Alike low low')
    (highAlike : Alike high high') : confine low high a ≤ confine low' high' b := by
  have number := isNumber_left lowAlike.1
  have number' := isNumber_right lowAlike.1
  have highNumber := isNumber_left highAlike.1
  have first : IsNumber (greater a low) := isNumber_greater number
  refine le_lesser (isNumber_greater number') ?_ ?_
  · exact le_trans (lesser_le_left first)
      (le_trans (below low number) (greater_mono lowAlike.1))
  · exact le_trans (lesser_le_right first highNumber) highAlike.1

/-- A number is moved into an interval. -/
theorem le_clamp (ordered : low ≤ high) (number : IsNumber a) : low ≤ clamp low high a := by
  unfold clamp
  split_ifs with less
  · exact le_self (isNumber_left ordered)
  · exact ordered
  · exact le_of_not_lt number (isNumber_left ordered) less

theorem clamp_le (ordered : low ≤ high) (number : IsNumber a) : clamp low high a ≤ high := by
  unfold clamp
  split_ifs with less more
  · exact ordered
  · exact le_self (isNumber_right ordered)
  · exact le_of_not_lt (isNumber_right ordered) number more

end Scalar

/-! ### Whole numbers and proportions -/

/-- Whole numbers below this one are scalars. -/
def wholeLimit : ℕ := 2 ^ 53

/-- A scalar type in which whole numbers are counted, compared and rounded down exactly. -/
class Indexing (α : Type) [Scalar α] : Prop where
  isFinite_natCast : ∀ {n : ℕ}, n < wholeLimit → Scalar.isFinite (n : α) = true
  same_natCast : ∀ n : ℕ, Scalar.same (n : α) (n : α) = true
  add_natCast : ∀ {m n : ℕ}, m + n < wholeLimit → (m : α) + (n : α) = ((m + n : ℕ) : α)
  sub_one : ∀ {n : ℕ}, n + 1 < wholeLimit → ((n + 1 : ℕ) : α) - 1 = (n : α)
  natCast_lt : ∀ {m n : ℕ}, m < wholeLimit → n < wholeLimit → ((m : α) < (n : α) ↔ m < n)
  natCast_beq : ∀ {m n : ℕ}, m < wholeLimit → n < wholeLimit → ((m : α) == (n : α)) = (m == n)
  floorNat_natCast : ∀ {n : ℕ}, n < wholeLimit → Scalar.floorNat (n : α) = n
  /-- Between zero and a whole number, rounding down stops at the whole number below. -/
  floorNat_spec : ∀ {a : α} {n : ℕ}, n + 1 < wholeLimit → 0 ≤ a → a ≤ (n : α) →
    Scalar.floorNat a ≤ n ∧ (Scalar.floorNat a : α) ≤ a ∧ a < (Scalar.floorNat a : α) + 1

/-- A scalar type in which a part of a finite length is a share of it. -/
class Proportional (α : Type) [Scalar α] : Prop where
  /-- A number further to the right is not nearer. -/
  sub_le_sub_right : ∀ {a b c : α}, a ≤ b → c < a → a - c ≤ b - c
  /-- A part of a length that is cut into `n` pieces lies within these pieces. -/
  share_mem : ∀ {a b : α} {n : ℕ}, n < wholeLimit → 0 < a → a ≤ b → Scalar.isFinite b = true →
    0 ≤ a / b * (n : α) ∧ a / b * (n : α) ≤ (n : α)
  isNaN_nan : Scalar.isNaN (Scalar.nan : α) = true
  /-- Nothing of a length that is not finite is no number. -/
  isNaN_of_infinite : ∀ {a b : α} (c : α), Scalar.isFinite b = false →
    Scalar.isNaN (a + b * ((0 : ℕ) : α) / c) = true

end Easing
