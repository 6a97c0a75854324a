/-
**Paths: anchors in x order over a domain.**

A path spans `[0, domain]`. Its first and last anchors are pinned there; interior anchors are kept
in ascending x, which makes the curve a function.

* `Path.diagonal`, `Path.ofKnots`: paths with new identifiers.
* `Path.find?`, `Path.previous?`, `Path.next?`: segments by identifier and their neighbours.
* `Path.insert`, `Path.remove`, `Path.modify`: changes of one segment.
* `Path.bounds?`: the room an anchor has while other anchors move with it.
* `Path.normalized`: the path scaled to the unit domain.
* `Path.snapshot`: the text of a path. It lists the anchors with their handles, without identifiers
  and without blanks, and tells whether the geometry has changed.
-/
import Easing.Path.Segment
import Easing.Error

namespace Easing

/-- A chain of segments over `[0, domain]`. -/
structure Path (α : Type) where
  segments : List (Segment α)
  domain : α
deriving BEq

namespace Path

variable {α : Type} [Scalar α]

/-! ### Making paths -/

/-- The path without segments. -/
def empty (domain : α) : Path α := ⟨[], domain⟩

/-- Gives identifiers to anchors, from left to right. -/
def identify : IdSupply → List (Knot α) → List (Segment α) × IdSupply
  | supply, [] => ([], supply)
  | supply, knot :: rest =>
    let (id, supply) := supply.fresh
    let (segments, supply) := identify supply rest
    ({ knot with id } :: segments, supply)

/-- The path through the given anchors, which are in x order. -/
def ofKnots (supply : IdSupply) (knots : List (Knot α)) (domain : α) : Path α × IdSupply :=
  let (segments, supply) := identify supply knots
  (⟨segments, domain⟩, supply)

/-- The straight path from `(0, 0)` to `(domain, domain)`. -/
def diagonal (supply : IdSupply) (domain : α) : Path α × IdSupply :=
  ofKnots supply [Knot.corner ⟨0, 0⟩, Knot.corner ⟨domain, domain⟩] domain

/-! ### Looking at paths -/

/-- The anchors with their handles, without identifiers. -/
def knots (path : Path α) : List (Knot α) := path.segments.map (·.toKnot)

/-- The number of segments. -/
def size (path : Path α) : Nat := path.segments.length

/-- Each segment but the last with the one after it. -/
def pairs : List (Segment α) → List (Segment α × Segment α)
  | left :: right :: rest => (left, right) :: pairs (right :: rest)
  | _ => []

/-- Consecutive segments. -/
def joints (path : Path α) : List (Segment α × Segment α) := pairs path.segments

/-- The x interval of every joint. -/
def ranges (path : Path α) : List (α × α) :=
  path.joints.map fun (left, right) => (left.point.x, right.point.x)

/-- The position of a segment. -/
def index? (path : Path α) (id : SegmentId) : Option Nat :=
  path.segments.findIdx? fun segment => segment.id = id

/-- The segment with an identifier. -/
def find? (path : Path α) (id : SegmentId) : Option (Segment α) :=
  path.segments.find? fun segment => segment.id = id

/-- The first segment has this identifier. -/
def isFirst (path : Path α) (id : SegmentId) : Bool :=
  path.segments.head?.any fun segment => segment.id = id

/-- The last segment has this identifier. -/
def isLast (path : Path α) (id : SegmentId) : Bool :=
  path.segments.getLast?.any fun segment => segment.id = id

/-- The first or the last segment has this identifier. -/
def isEndpoint (path : Path α) (id : SegmentId) : Bool := path.isFirst id || path.isLast id

/-- The segment before the one with this identifier. -/
def previous? (path : Path α) (id : SegmentId) : Option (Segment α) :=
  match path.index? id with
  | some (index + 1) => path.segments[index]?
  | _ => none

/-- The segment after the one with this identifier. -/
def next? (path : Path α) (id : SegmentId) : Option (Segment α) :=
  (path.index? id).bind fun index => path.segments[index + 1]?

/-! ### Changing paths -/

/-- Changes the first segment with an identifier. -/
def modifyFirst (id : SegmentId) (change : Segment α → Segment α) :
    List (Segment α) → List (Segment α)
  | [] => []
  | segment :: rest =>
    if segment.id = id then change segment :: rest
    else segment :: modifyFirst id change rest

/-- Changes the segment with an identifier; a path without it stays as it is. -/
def modify (path : Path α) (id : SegmentId) (change : Segment α → Segment α) : Path α :=
  { path with segments := modifyFirst id change path.segments }

/-- The index of the nearest anchor to the left of `x`, looking on from `index`, when the nearest
so far is at index `best` and at the given distance. -/
def nearestLeft (x : α) : List (Segment α) → Nat → Nat → α → Nat
  | [], _, best, _ => best
  | segment :: rest, index, best, distance =>
    let d := x - segment.point.x
    if 0 < d && d < distance then nearestLeft x rest (index + 1) index d
    else nearestLeft x rest (index + 1) best distance

/-- The place of a new anchor: after the nearest anchor to its left. The first anchor is taken
where there is none, so that it stays the first. -/
def insertionIndex (first : Segment α) (segments : List (Segment α)) (x : α) : Nat :=
  nearestLeft x segments 0 0 (x - first.point.x) + 1

/-- Inserts an anchor without handles. -/
def insert (path : Path α) (supply : IdSupply) (point : Point α) :
    Except (CurveError α) (SegmentId × Path α × IdSupply) :=
  match path.segments with
  | [] => .error .emptyPath
  | first :: rest =>
    let (id, supply) := supply.fresh
    let index := insertionIndex first (first :: rest) point.x
    let segments := (first :: rest).insertIdx index { Knot.corner point with id }
    .ok (id, { path with segments }, supply)

/-- Removes an interior segment; none when the identifier is that of an endpoint or of no
segment. -/
def remove? (path : Path α) (id : SegmentId) : Option (Path α) :=
  if path.isEndpoint id then none
  else (path.index? id).map fun index => { path with segments := path.segments.eraseIdx index }

/-! ### Room to move -/

/-- The anchors that do not move: the endpoints, and those not in `moving`. -/
def isFixed (path : Path α) (moving : SegmentId → Bool) (index : Nat) : Bool :=
  index == 0 || index + 1 == path.size ||
    (path.segments[index]?).any fun segment => !moving segment.id

/-- The x of the anchor at an index. -/
def anchorX? (path : Path α) (index : Nat) : Option α :=
  (path.segments[index]?).map (·.point.x)

/-- The x interval that an anchor may be moved in while the anchors in `moving` move with it. It
reaches to the nearest anchor on each side that does not move, or to the end of the domain. -/
def bounds? (path : Path α) (id : SegmentId) (moving : SegmentId → Bool) : Option (α × α) :=
  (path.index? id).map fun index =>
    let before := (List.range index).reverse.find? (path.isFixed moving)
    let after := (List.range' (index + 1) (path.size - (index + 1))).find? (path.isFixed moving)
    ((before.bind path.anchorX?).getD 0, (after.bind path.anchorX?).getD path.domain)

/-! ### The unit domain -/

/-- The path scaled so that its domain is `[0, 1]`. Identifiers are kept. -/
def normalized (path : Path α) : Path α :=
  if path.domain == 1 then path
  else
    let factor := 1 / path.domain
    ⟨path.segments.map fun segment => { segment with toKnot := segment.toKnot.scale factor }, 1⟩

end Path

/-! ### Snapshots -/

/-- The text of a side. -/
def Side.snapshot (side : Side) : String := "\"" ++ side.word ++ "\""

section Snapshots

variable {α : Type} [Numeral α]

/-- A pair of coordinates under their names. -/
def coordinatesText (x y : α) : String :=
  "\x7b\"x\":" ++ Numeral.snapshot x ++ ",\"y\":" ++ Numeral.snapshot y ++ "\x7d"

/-- An anchor with its handles under their names. -/
def Knot.snapshot (knot : Knot α) : String :=
  "\x7b\"point\":" ++ coordinatesText knot.point.x knot.point.y ++
    ",\"handle_in\":" ++ coordinatesText knot.handleIn.x knot.handleIn.y ++
    ",\"handle_out\":" ++ coordinatesText knot.handleOut.x knot.handleOut.y ++ "\x7d"

/-- The text of anchors in order. -/
def snapshotText (knots : List (Knot α)) : String :=
  "[" ++ String.intercalate "," (knots.map Knot.snapshot) ++ "]"

/-- The snapshot of a path. -/
def Path.snapshot [Scalar α] (path : Path α) : String := snapshotText path.knots

end Snapshots

end Easing
