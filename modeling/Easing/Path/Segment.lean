/-
**Segments: anchors with two handles.**

A handle is relative to its anchor, and a handle of no length makes a straight side. Segments are
told apart by their identifiers, so that what is selected does not move when anchors are inserted
or removed.

* `SegmentId`, `IdSupply`: identifiers in the order in which they are made; none is made twice.
* `Side`: the two handles of a segment.
* `Segment`: an anchor with its identifier and its handles.
-/
import Easing.Plane

namespace Easing

/-- The identifier of a segment. -/
structure SegmentId where
  number : Nat
deriving DecidableEq

/-- The identifiers that are still to be made: all from a number on. -/
structure IdSupply where
  next : Nat

namespace IdSupply

/-- The supply from which nothing was taken. -/
def initial : IdSupply := ⟨0⟩

/-- Takes a new identifier. -/
def fresh (supply : IdSupply) : SegmentId × IdSupply := (⟨supply.next⟩, ⟨supply.next + 1⟩)

/-- Takes all identifiers up to a number, that one included. -/
def reserve (supply : IdSupply) (number : Nat) : IdSupply := ⟨max supply.next (number + 1)⟩

end IdSupply

/-- One of the two handles of a segment. -/
inductive Side where
  /-- The handle towards the anchor before. -/
  | incoming
  /-- The handle towards the anchor after. -/
  | outgoing
deriving DecidableEq

namespace Side

/-- The other handle of the same segment. -/
def opposite : Side → Side
  | .incoming => .outgoing
  | .outgoing => .incoming

/-- The word for a side in snapshots. -/
def word : Side → String
  | .incoming => "in"
  | .outgoing => "out"

end Side

/-- The geometry of a segment: its anchor, and its handles relative to the anchor. -/
structure Knot (α : Type) where
  point : Point α
  handleIn : Vec α
  handleOut : Vec α
deriving BEq

/-- An anchor with its handles, under an identifier. -/
structure Segment (α : Type) extends Knot α where
  id : SegmentId
deriving BEq

namespace Knot

variable {α : Type} [Scalar α]

/-- An anchor without handles. -/
def corner (point : Point α) : Knot α := ⟨point, Vec.zero, Vec.zero⟩

/-- The handle on one side. -/
def handle (knot : Knot α) : Side → Vec α
  | .incoming => knot.handleIn
  | .outgoing => knot.handleOut

/-- The position of the handle on one side. -/
def handlePoint (knot : Knot α) (side : Side) : Point α := knot.point + knot.handle side

/-- Neither handle has a length. -/
def isLinear (knot : Knot α) : Bool := knot.handleIn.isZero && knot.handleOut.isZero

/-- A handle has a length. -/
def isPartiallySmooth (knot : Knot α) : Bool := !knot.handleIn.isZero || !knot.handleOut.isZero

/-- A handle has no length. -/
def isPartiallyLinear (knot : Knot α) : Bool := knot.handleIn.isZero || knot.handleOut.isZero

/-- Both coordinates of the anchor and of the handles multiplied by a factor. -/
def scale (knot : Knot α) (factor : α) : Knot α :=
  ⟨knot.point.scale factor, knot.handleIn.scale factor, knot.handleOut.scale factor⟩

end Knot

namespace Segment

variable {α : Type} [Scalar α]

/-- The segment with another handle on one side. -/
def setHandle (segment : Segment α) (side : Side) (handle : Vec α) : Segment α :=
  match side with
  | .incoming => { segment with handleIn := handle }
  | .outgoing => { segment with handleOut := handle }

/-- The segment without handles. -/
def flatten (segment : Segment α) : Segment α :=
  { segment with handleIn := Vec.zero, handleOut := Vec.zero }

end Segment

end Easing
