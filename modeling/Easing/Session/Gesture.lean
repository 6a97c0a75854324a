/-
**Gestures: a press, drags, a release.**

A press chooses the selection and remembers where it is; drags move it; a release ends the gesture.
A release that is near to its press in time and place makes a click: with shift it toggles the item
that was hit, unless the press added it, and with alt it smooths.

* `Session.pressDown`, `Session.drag`, `Session.release`.
* `Session.isClick`: what makes a click.
-/
import Easing.Session.Edit

namespace Easing

namespace Session

variable {α : Type} [Scalar α]

/-- The selection after a press on an item or on nothing. -/
def selectOnPress (selection : Selection α) (hit : Option Item) (event : PointerEvent α) :
    Selection α :=
  let adds := event.modifiers.addsToSelection
  let exclusive := event.modifiers.editsExclusively
  match hit with
  | none => if adds || exclusive then selection else Selection.empty
  | some item =>
    if exclusive then
      if selection.contains item then selection else Selection.only item event.time
    else if adds then selection.insert item event.time
    else Selection.only item event.time

/-- Begins a gesture with the left button. -/
def pressDown (session : Session α) (event : PointerEvent α) : Session α :=
  if event.button = some .left then
    let session := { session with isDown := true, press := some event }
    let hit := (session.hitTest event.position).map (·.item)
    let session := { session with selection := selectOnPress session.selection hit event }
    session.freezeSelection.hover event.position event.modifiers
  else session

/-- Goes on with a gesture. -/
def drag (session : Session α) (event : PointerEvent α) : Except DomainFault (Session α) :=
  if session.isDown then
    (session.transform event).map (·.hover event.position event.modifiers)
  else .ok session

/-- The release is near to its press in time and place. -/
def isClick (session : Session α) (event : PointerEvent α) : Bool :=
  match session.press with
  | none => false
  | some press =>
    let elapsed := event.time - press.time
    let moved := (event.position - press.position).length
    elapsed < session.settings.clickDebounce && moved < session.settings.clickRadius

/-- The selection after a click: with shift, the item that was hit is toggled, unless it was added
just now. -/
def selectOnClick (session : Session α) (event : PointerEvent α) : Selection α :=
  if event.modifiers.addsToSelection then
    match session.hitTest event.position with
    | none => session.selection
    | some hit =>
      if session.selection.isRecent hit.item event.time session.settings.clickDebounce then
        session.selection
      else session.selection.toggle hit.item event.time
  else session.selection

/-- What a click does to the selection and to its anchors. -/
def click (session : Session α) (event : PointerEvent α) : Except DomainFault (Session α) :=
  let session := { session with selection := session.selectOnClick event }
  if event.modifiers.editsExclusively then session.toggleSmoothing.map (·.1) else .ok session

variable [Numeral α]

/-- Ends a gesture and settles; tells whether it was a click. -/
def release (session : Session α) (event : PointerEvent α) :
    Except DomainFault (Session α × Bool) := do
  if session.isDown then
    let session := { session with isDown := false }
    let clicked := session.isClick event
    let session ← if clicked then session.click event else .ok session
    let session := settle { session with grid := .coarse }
    return (session.hover event.position event.modifiers, clicked)
  else return (session, false)

end Session

end Easing
