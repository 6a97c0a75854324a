/-
**Handles held inside the domain, and points on the grid.**

* `snapToGrid`: the nearest grid point.
* `clampHandle`: the handle that comes as near to a target as the domain allows. A target beyond a
  bound is cut where the line from the anchor to it crosses that bound.
* `mirrorHandle`: the opposite handle, turned to point away from a leading one.

A handle is cut only in a domain that is an interval: `DomainFault` stands for the others.
-/
import Easing.Path.Segment

namespace Easing

variable {α : Type} [Scalar α]

/-- Why an edit cannot be carried out. -/
inductive DomainFault where
  /-- The end of the domain is below zero, or no number. -/
  | notAnInterval

/-- The value of `[0, domain]` nearest to `a`. -/
def clampToDomain (domain a : α) : Except DomainFault α :=
  if 0 ≤ domain then .ok (Scalar.clamp 0 domain a) else .error .notAnInterval

/-- A coordinate on the nearest of the lines that divide the domain into cells. -/
def snapCoordinate (domain cells a : α) : α := Scalar.round (a / domain * cells) / cells * domain

/-- The nearest grid point; the point itself when there is no grid. -/
def snapToGrid (domain : α) (cells : Nat) (p : Point α) : Point α :=
  if cells = 0 ∨ domain ≤ 0 then p
  else ⟨snapCoordinate domain cells p.x, snapCoordinate domain cells p.y⟩

/-- The point where the line from an anchor to a target crosses the bound that the target exceeds,
when it lies between the two in x. -/
def boundCrossing (anchor target : Point α) (domain : α) : Option (Point α) :=
  let limit := if domain < target.x then domain else 0
  let reach : Line α := ⟨anchor, target⟩
  let bound : Line α := ⟨⟨limit, -1⟩, ⟨limit, 1⟩⟩
  let (low, high) := if anchor.x ≤ target.x then (anchor.x, target.x) else (target.x, anchor.x)
  (reach.crossing bound).filter fun crossing => low ≤ crossing.x && crossing.x ≤ high

/-- The handle that comes as near to a target as the domain allows. Where nothing of the way to the
target lies in the domain, the handle keeps its value. -/
def clampHandle (knot : Knot α) (side : Side) (target : Point α) (domain : α) :
    Except DomainFault (Vec α) :=
  if 0 ≤ target.x ∧ target.x ≤ domain then .ok (target - knot.point)
  else
    match boundCrossing knot.point target domain with
    | some crossing =>
      (clampToDomain domain crossing.x).map fun x => (⟨x, crossing.y⟩ : Point α) - knot.point
    | none => .ok (knot.handle side)

/-- Turns the handle opposite `leader` away from it, inside the domain. -/
def mirrorHandle (segment : Segment α) (leader : Side) (domain : α) :
    Except DomainFault (Segment α) :=
  let target := segment.point - segment.handle leader
  (clampHandle segment.toKnot leader.opposite target domain).map fun handle =>
    segment.setHandle leader.opposite handle

end Easing
