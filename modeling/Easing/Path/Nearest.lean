/-
**The point of a path nearest to a position.**

The candidates are the anchors and the handles with a length; a handle without one lies on its
anchor. Of equally near candidates the first is taken, a segment's handles coming before its
anchor.
-/
import Easing.Path.Basic

namespace Easing

namespace Path

variable {α : Type} [Scalar α]

/-- The points of one segment, the handles first. -/
def candidates (segment : Segment α) : List (Point α) :=
  (if segment.handleIn.isZero then [] else [segment.handlePoint .incoming]) ++
    (if segment.handleOut.isZero then [] else [segment.handlePoint .outgoing]) ++
    [segment.point]

/-- The nearer of the best point so far and a new one, with its distance to `target`. -/
def nearer (target : Point α) (best : Point α × α) (point : Point α) : Point α × α :=
  let distance := point.distance target
  if distance < best.2 then (point, distance) else best

/-- The nearest anchor or handle, when it is nearer than `threshold`. -/
def nearest? (path : Path α) (target : Point α) (threshold : α) : Option (Point α) :=
  match path.segments.flatMap candidates with
  | [] => none
  | seed :: rest =>
    let (point, distance) := rest.foldl (nearer target) (seed, seed.distance target)
    if distance < threshold then some point else none

end Path

end Easing
