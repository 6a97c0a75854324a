/-
**What lies under the pointer.**

An item is hit when it is the nearest one and within the hit radius. A handle without a length
cannot be hit. Of equally near items the first is taken, the anchor of a segment coming before its
handles.
-/
import Easing.Session.Basic
import Easing.Path.Nearest

namespace Easing

/-- An item with its position and its distance from the pointer. -/
structure Hit (α : Type) where
  item : Item
  point : Point α
  distance : α

namespace Session

variable {α : Type} [Scalar α]

/-- The position of a part of a segment. -/
def partPoint (segment : Segment α) : Part → Point α
  | .anchor => segment.point
  | .handle side => segment.handlePoint side

/-- The position of an item. -/
def pointOf? (session : Session α) (item : Item) : Option (Point α) :=
  (session.path.find? item.segment).map fun segment => partPoint segment item.part

/-- The handle on one side as an item, when it has a length. -/
def handleTarget (segment : Segment α) (side : Side) : List (Item × Point α) :=
  if (segment.handle side).isZero then []
  else [(Item.handle segment.id side, segment.handlePoint side)]

/-- The items of a segment that can be hit. -/
def targets (segment : Segment α) : List (Item × Point α) :=
  (Item.anchor segment.id, segment.point) ::
    (handleTarget segment .incoming ++ handleTarget segment .outgoing)

/-- The nearer of the best hit so far and a new item, which must lie within the radius. -/
def nearerHit (position : Point α) (radius : α) (best : Option (Hit α))
    (target : Item × Point α) : Option (Hit α) :=
  let distance := target.2.distance position
  if radius < distance then best
  else
    let isNearer := match best with
      | some hit => decide (distance < hit.distance)
      | none => true
    if isNearer then some ⟨target.1, target.2, distance⟩ else best

/-- The nearest item within the hit radius. -/
def hitTest (session : Session α) (position : Point α) : Option (Hit α) :=
  (session.path.segments.flatMap targets).foldl
    (nearerHit position session.settings.hitRadius) none

/-- The cursor for a pointer at a position. -/
def cursorAt (session : Session α) (position : Point α) (modifiers : Modifiers) : Cursor :=
  let isNear := (session.path.nearest? position session.settings.hitRadius).isSome
  if session.isDown || isNear then .grabbing
  else if modifiers.addsToSelection then .copy
  else .crosshair

/-- Shows the cursor for a pointer at a position. -/
def hover (session : Session α) (position : Point α) (modifiers : Modifiers) : Session α :=
  { session with cursor := session.cursorAt position modifiers }

end Session

end Easing
