/-
**Points and displacements of the plane.**

An anchor is a `Point`; a handle is a `Vec`, the displacement from its anchor. Lengths are the
plain root of the sum of squares: a displacement too small to have a square other than zero has
length zero.

* `Vec.length`, `Vec.normalize`, `Point.distance`.
* `Line.crossing`: where two lines through given points meet.
-/
import Easing.Scalar

namespace Easing

/-- A position in the plane. -/
structure Point (α : Type) where
  x : α
  y : α
deriving BEq

/-- A displacement in the plane. -/
structure Vec (α : Type) where
  x : α
  y : α
deriving BEq

namespace Vec

variable {α : Type} [Scalar α]

/-- The displacement that goes nowhere. -/
def zero : Vec α := ⟨0, 0⟩

/-- The displacement repeated `factor` times. -/
def scale (v : Vec α) (factor : α) : Vec α := ⟨v.x * factor, v.y * factor⟩

/-- Division by a scalar is multiplication by its inverse. -/
def divide (v : Vec α) (divisor : α) : Vec α := v.scale (1 / divisor)

/-- The root of the sum of squares. -/
def length (v : Vec α) : α := Scalar.sqrt (v.x * v.x + v.y * v.y)

/-- The displacement of length one in the same direction. -/
def normalize (v : Vec α) : Vec α := v.divide v.length

/-- The signed area of the parallelogram that two displacements span. -/
def cross (v w : Vec α) : α := v.x * w.y - v.y * w.x

/-- The displacement has no length. -/
def isZero (v : Vec α) : Bool := v.length == 0

/-- The displacement of the given length in the direction of `v`; none in no direction. -/
def withLength (v : Vec α) (length : α) : Vec α :=
  if v.isZero then zero else v.normalize.scale length

end Vec

namespace Point

variable {α : Type} [Scalar α]

/-- The point that a displacement leads to. -/
def add (p : Point α) (v : Vec α) : Point α := ⟨p.x + v.x, p.y + v.y⟩

/-- The point that a displacement leads from. -/
def back (p : Point α) (v : Vec α) : Point α := ⟨p.x - v.x, p.y - v.y⟩

/-- The displacement that leads from `q` to `p`. -/
def sub (p q : Point α) : Vec α := ⟨p.x - q.x, p.y - q.y⟩

instance : HAdd (Point α) (Vec α) (Point α) := ⟨add⟩

instance : HSub (Point α) (Vec α) (Point α) := ⟨back⟩

instance : HSub (Point α) (Point α) (Vec α) := ⟨sub⟩

/-- The length of the displacement between two points. -/
def distance (p q : Point α) : α := (p - q).length

/-- Both coordinates multiplied by a factor. -/
def scale (p : Point α) (factor : α) : Point α := ⟨p.x * factor, p.y * factor⟩

end Point

/-- A line, given by two of its points. -/
structure Line (α : Type) where
  first : Point α
  second : Point α

/-- The point where two lines meet; none when they are parallel. -/
def Line.crossing {α : Type} [Scalar α] (line other : Line α) : Option (Point α) :=
  let along := line.second - line.first
  let across := other.second - other.first
  let area := along.cross across
  if area == 0 then none
  else some (other.first + across.scale (along.cross (line.first - other.first) / area))

end Easing
