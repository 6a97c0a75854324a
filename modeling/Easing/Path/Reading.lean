/-
**Snapshots written and read back.**

A snapshot is a sequence of records. An anchor and both coordinates of a pair are required; a
handle that is missing has no length. What is done with the text of a snapshot is left to a library.

* `readKnots`, `Path.restore`: the anchors of a snapshot, and a path made of them.
* `Path.toJson`, `Path.fingerprint`: the snapshot of a path.
* `readSnapshot`: the anchors as the library of the program reads them.
-/
import Easing.Path.Basic
import Easing.Scalar.Binary64
import Easing.Json.Decode

namespace Easing

/-! ### Reading -/

/-- A pair of coordinates under their names. -/
def pairShape (json : Json.Library) (record : String) : Json.Shape json.Reader Float 2 where
  name := record
  fields := #v[⟨"x", json.number, none⟩, ⟨"y", json.number, none⟩]

/-- An anchor with its handles. -/
def knotShape (json : Json.Library) : Json.Shape json.Reader (Vector Float 2) 3 where
  name := "struct SegmentRecord"
  fields := #v[
    ⟨"point", json.record (pairShape json "struct Point"), none⟩,
    ⟨"handle_in", json.record (pairShape json "struct Vec2"), some #v[0, 0]⟩,
    ⟨"handle_out", json.record (pairShape json "struct Vec2"), some #v[0, 0]⟩]

/-- The anchor and the handles with the given coordinates. -/
def Knot.ofPairs (pairs : Vector (Vector Float 2) 3) : Knot Float where
  point := ⟨pairs[0][0], pairs[0][1]⟩
  handleIn := ⟨pairs[1][0], pairs[1][1]⟩
  handleOut := ⟨pairs[2][0], pairs[2][1]⟩

/-- Reads the anchors of a snapshot. -/
def readKnots (json : Json.Library) (text : String) : Except json.Refusal (List (Knot Float)) :=
  (json.read (json.sequence (json.record (knotShape json))) text).map (List.map Knot.ofPairs)

/-- Reads a snapshot. -/
def readSnapshot (text : String) : Json.Reading (List (Knot Float)) := readKnots Json.library text

/-- The path of a snapshot over a domain, with new identifiers. -/
def Path.restore (json : Json.Library) (supply : IdSupply) (text : String) (domain : Float) :
    Except json.Refusal (Path Float × IdSupply) :=
  (readKnots json text).map fun knots => Path.ofKnots supply knots domain

/-! ### Writing -/

/-- A pair of coordinates under their names. -/
def pairContent (x y : Float) : Json.Content := .record [("x", .number x), ("y", .number y)]

/-- An anchor with its handles under their names. -/
def Knot.content (knot : Knot Float) : Json.Content :=
  .record [("point", pairContent knot.point.x knot.point.y),
    ("handle_in", pairContent knot.handleIn.x knot.handleIn.y),
    ("handle_out", pairContent knot.handleOut.x knot.handleOut.y)]

/-- Writes the snapshot of a path. -/
def Path.toJson (json : Json.Library) (path : Path Float) : Except json.Refusal String :=
  json.write (.sequence (path.knots.map Knot.content))

/-- The text that tells paths apart: the snapshot, or nothing when it cannot be written. -/
def Path.fingerprint (json : Json.Library) (path : Path Float) : String :=
  match path.toJson json with
  | .ok text => text
  | .error _ => ""

/-! ### Sides -/

/-- The side that a word names. -/
def Side.ofWord? (word : String) : Option Side :=
  [Side.incoming, Side.outgoing].find? fun side => side.word == word

/-- Reads a side. -/
def readSide (text : String) : Json.Reading Side :=
  Json.decode (Json.Value.word Side.ofWord? "`in` or `out`") text

end Easing
