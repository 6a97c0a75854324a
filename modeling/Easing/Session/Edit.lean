/-
**Edits of the selection: smoothing, deleting, inserting.**

* `Session.toggleSmoothing`: gives handles to the selected anchors when all of them are linear, and
  takes the handles away when one is not.
* `Session.deleteSelection`: removes the selected interior anchors.
* `Session.insertPoint`: inserts an anchor and selects it alone.
-/
import Easing.Session.Drag

namespace Easing

namespace Session

variable {α : Type} [Scalar α]

/-! ### Smoothing -/

/-- Takes the handles of a segment away, from the path and from the selection. -/
def flatten (session : Session α) (id : SegmentId) : Session α :=
  { session with
    path := session.path.modify id Segment.flatten
    selection :=
      (session.selection.remove (Item.handle id .incoming)).remove (Item.handle id .outgoing) }

/-- The segment with handles along the line between its neighbours, a sixth of it long, both inside
the domain. -/
def smoothInterior (segment : Segment α) (previous next : Point α) (domain : α) :
    Except DomainFault (Segment α) := do
  let tangent := (next - previous).divide 6
  let ahead := segment.point + tangent
  let behind := segment.point - tangent
  let handleOut ← clampHandle segment.toKnot .outgoing ahead domain
  let segment := { segment with handleOut }
  let handleIn ← clampHandle segment.toKnot .incoming behind domain
  return { segment with handleIn }

/-- The segment with handles that suit its neighbours. At an endpoint a single handle points to the
only neighbour. -/
def smoothSegment (segment : Segment α) (previous next : Option (Point α)) (length domain : α) :
    Except DomainFault (Segment α) :=
  match previous, next with
  | none, some next =>
    .ok { segment with handleOut := (next - segment.point).withLength length }
  | some previous, none =>
    .ok { segment with handleIn := (previous - segment.point).withLength length }
  | some previous, some next => smoothInterior segment previous next domain
  | none, none => .ok segment

/-- The path with the anchor of one segment smoothed. -/
def smoothAnchor (length : α) (path : Path α) (id : SegmentId) :
    Except DomainFault (Path α) :=
  let previous := (path.previous? id).map (·.point)
  let next := (path.next? id).map (·.point)
  match path.find? id with
  | none => .ok path
  | some segment =>
    (smoothSegment segment previous next length path.domain).map fun changed =>
      path.modify id fun _ => changed

/-- No selected anchor of the path has a handle. -/
def onlyLinear (session : Session α) : Bool :=
  (session.selection.anchors.filterMap session.path.find?).all fun segment => segment.isLinear

/-- Smooths the selected anchors, or flattens them when one has a handle; tells whether any anchor
is selected. -/
def toggleSmoothing (session : Session α) : Except DomainFault (Session α × Bool) :=
  let anchors := session.selection.anchors
  if session.onlyLinear then
    let length := session.settings.smoothingRatio * session.path.domain
    (anchors.foldlM (smoothAnchor length) session.path).map fun path =>
      ({ session with path }, !anchors.isEmpty)
  else .ok (anchors.foldl flatten session, !anchors.isEmpty)

/-! ### Deleting and inserting -/

/-- Removes an interior anchor, with everything of it that is selected, and counts it. -/
def removeAnchor (state : Session α × Nat) (id : SegmentId) : Session α × Nat :=
  match state.1.path.remove? id with
  | some path =>
    ({ state.1 with path, selection := state.1.selection.removeSegment id }, state.2 + 1)
  | none => state

variable [Numeral α]

/-- Removes the selected anchors that are no endpoints, and counts them. -/
def deleteSelection (session : Session α) : Session α × Nat :=
  let doomed := session.selection.anchors.filter fun id => !session.path.isEndpoint id
  let (session, removed) := doomed.foldl removeAnchor (session, 0)
  (if 0 < removed then session.settle else session, removed)

/-- Inserts an anchor, moved into the domain, and selects it alone. -/
def insertPoint (session : Session α) (point : Point α) (now : Nat) :
    Except DomainFault (Except (CurveError α) (SegmentId × Session α)) :=
  (clampToDomain session.path.domain point.x).map fun x =>
    (session.path.insert session.ids ⟨x, point.y⟩).map fun (id, path, ids) =>
      (id, settle { session with path, ids, selection := Selection.only (Item.anchor id) now })

end Session

end Easing
