/-
**Scalars: the numbers that curves are computed with.**

Every definition of the library that computes is written once, over a type `α` with a `Scalar`
instance, and keeps the order of its operations. The instance for doubles
(`Easing.Scalar.Binary64`) runs; an ordered field gives the exact reading of the same definitions.

* `Scalar`: arithmetic, order, square root, rounding, the classes NaN, infinite and finite, and
  `same`, which tells apart what `==` does not (zero and minus zero) and joins what it does not
  (NaN and NaN).
* `lesser`, `greater`: the minimum and maximum that pass over a NaN.
* `clamp`: the value moved into an interval, a NaN left alone.
* `Numeral`: the two written forms of a scalar, in running text and in a snapshot.
-/

namespace Easing

/-- A number type for curves. Nothing is assumed of the operations here; the laws that a statement
needs are hypotheses of that statement. -/
class Scalar (α : Type) extends
    Add α, Sub α, Mul α, Div α, Neg α, LT α, LE α, BEq α, NatCast α, OfScientific α where
  /-- The order test below is decidable. -/
  decideLt : (a b : α) → Decidable (a < b)
  /-- The weak order test is decidable. -/
  decideLe : (a b : α) → Decidable (a ≤ b)
  /-- The square root. -/
  sqrt : α → α
  /-- The absolute value. -/
  abs : α → α
  /-- The nearest whole number, a half going away from zero. -/
  round : α → α
  /-- The largest whole number that is not greater, as a natural number; zero for a negative
  number or a NaN. -/
  floorNat : α → Nat
  /-- The result of an operation that has none. -/
  nan : α
  /-- Whether the scalar is not a number. -/
  isNaN : α → Bool
  /-- Whether the scalar is infinite. -/
  isInfinite : α → Bool
  /-- Whether two scalars are one value, told apart by everything that can be observed. -/
  same : α → α → Bool

/-- The written forms of a scalar. -/
class Numeral (α : Type) where
  /-- The form in messages and in generated source. -/
  plain : α → String
  /-- The form in a snapshot. -/
  snapshot : α → String

namespace Scalar

variable {α : Type} [Scalar α]

instance (a b : α) : Decidable (a < b) := decideLt a b

instance (a b : α) : Decidable (a ≤ b) := decideLe a b

/-- Numerals of any scalar type are casts of natural numbers. -/
instance (priority := low) {n : Nat} : OfNat α n := ⟨Nat.cast n⟩

/-- Neither infinite nor NaN. -/
def isFinite (a : α) : Bool := !isNaN a && !isInfinite a

/-- The lesser of two numbers; a NaN gives way to the other operand, and of two equal numbers the
first is taken. -/
def lesser (a b : α) : α := if isNaN a then b else if b < a then b else a

/-- The greater of two numbers; a NaN gives way to the other operand, and of two equal numbers the
first is taken. -/
def greater (a b : α) : α := if isNaN a then b else if a < b then b else a

/-- The value of `[low, high]` nearest to `a`. A value inside is returned as it is, and so is a
NaN. -/
def clamp (low high a : α) : α := if a < low then low else if high < a then high else a

/-- Two lists of scalars are one value, entry by entry. -/
def sameAll : List α → List α → Bool
  | [], [] => true
  | a :: as, b :: bs => same a b && sameAll as bs
  | _, _ => false

end Scalar

end Easing
