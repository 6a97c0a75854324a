/-
**Pointer events.**

Positions are in the units of the path's domain. Times are milliseconds of a clock of the host;
only their differences count.
-/
import Easing.Plane

namespace Easing

/-- The keys that are held during an event. -/
structure Modifiers where
  shift : Bool
  ctrl : Bool
  alt : Bool
  command : Bool

namespace Modifiers

/-- No key is held. -/
def none : Modifiers := ⟨false, false, false, false⟩

/-- The selection grows. -/
def addsToSelection (modifiers : Modifiers) : Bool := modifiers.shift

/-- The group of the item that was hit is kept; handles move as pairs, and a click smooths. -/
def editsExclusively (modifiers : Modifiers) : Bool := modifiers.alt

/-- Dragged points snap to the grid. -/
def snapsToGrid (modifiers : Modifiers) : Bool := modifiers.ctrl

end Modifiers

/-- The buttons of a pointer. -/
inductive Button where
  | left
  | right
  | middle
deriving DecidableEq

/-- What happened at a position. -/
structure PointerEvent (α : Type) where
  position : Point α
  button : Option Button
  modifiers : Modifiers
  time : Nat

end Easing
