/-
**Dragging the selection.**

Items move from the points they had at the press, so the path depends on the latest event alone. An
anchor stays between the nearest anchors that do not move, and an endpoint keeps its x; a handle
stays in the domain.

* `Session.freezeSelection`: remembers where the selected items are.
* `Session.moveItem`: puts one item at its target.
* `Session.transform`: moves all of them.
-/
import Easing.Session.Hit
import Easing.Handle

namespace Easing

namespace Session

variable {α : Type} [Scalar α]

/-- Remembers where every selected item is. -/
def freezeSelection (session : Session α) : Session α :=
  { session with selection := session.selection.freeze session.pointOf? }

/-- The x that an anchor is moved to. -/
def anchorX (path : Path α) (selection : Selection α) (id : SegmentId) (x : α) : α :=
  if path.isFirst id then 0
  else if path.isLast id then path.domain
  else
    let moving := fun other => selection.contains (Item.anchor other)
    let (low, high) := (path.bounds? id moving).getD (0, path.domain)
    Scalar.lesser (Scalar.greater x low) high

/-- The segment with a handle moved to a target, and its other handle too when they move as a
pair. -/
def dragHandle (segment : Segment α) (side : Side) (target : Point α) (domain : α)
    (paired : Bool) : Except DomainFault (Segment α) := do
  let handle ← clampHandle segment.toKnot side target domain
  let segment := segment.setHandle side handle
  if paired then mirrorHandle segment side domain else return segment

/-- The path with an item moved to a target. A path without its segment stays as it is. -/
def moveItem (selection : Selection α) (paired : Bool) (path : Path α) (item : Item)
    (target : Point α) : Except DomainFault (Path α) :=
  match path.find? item.segment with
  | none => .ok path
  | some segment =>
    match item.part with
    | .handle side =>
      (dragHandle segment side target path.domain paired).map fun changed =>
        path.modify item.segment fun _ => changed
    | .anchor =>
      let x := anchorX path selection item.segment target.x
      .ok (path.modify item.segment fun segment => { segment with point := ⟨x, target.y⟩ })

/-- The selected items with the points they are dragged from. -/
def moves (selection : Selection α) : List (Item × Point α) :=
  selection.entries.filterMap fun entry => entry.frozen.map fun point => (entry.item, point)

/-- Moves the selection by the way of the pointer since the press. -/
def transform (session : Session α) (event : PointerEvent α) :
    Except DomainFault (Session α) := do
  match session.press with
  | none => return session
  | some press =>
    if session.selection.isEmpty then return session
    let offset := event.position - press.position
    let snapping := event.modifiers.snapsToGrid
    let domain := session.path.domain
    let target := fun (frozen : Point α) =>
      let moved := frozen + offset
      if snapping then snapToGrid domain session.settings.snapCells moved else moved
    let paired := event.modifiers.editsExclusively
    let path ← (moves session.selection).foldlM
      (fun path (item, frozen) => moveItem session.selection paired path item (target frozen))
      session.path
    return { session with path, grid := if snapping then .fine else .coarse }

end Session

end Easing
