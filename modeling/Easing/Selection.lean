/-
**Selections: the anchors and handles that an edit acts on.**

A selection is a list of items in the order of their segments, the anchor of a segment coming
before its handles, with no item twice; the order is part of the type. Each item knows when it was
added and, while it is dragged, the point from which it is dragged.

* `Item`, `Part`: what can be selected.
* `Selection.insert`, `remove`, `toggle`, `retain`: changes of membership.
* `Selection.freeze`: remembers a point for every item.
-/
import Easing.Path.Segment

namespace Easing

/-- The part of a segment that is selected. -/
inductive Part where
  | anchor
  | handle (side : Side)
deriving DecidableEq

namespace Part

/-- The side of a handle. -/
def side? : Part → Option Side
  | .anchor => none
  | .handle side => some side

/-- The place of a part among the three parts of a segment. -/
def rank : Part → Nat
  | .anchor => 0
  | .handle .incoming => 1
  | .handle .outgoing => 2

end Part

/-- A part of a segment. -/
structure Item where
  segment : SegmentId
  part : Part
deriving DecidableEq

namespace Item

/-- The anchor of a segment. -/
def anchor (segment : SegmentId) : Item := ⟨segment, .anchor⟩

/-- A handle of a segment. -/
def handle (segment : SegmentId) (side : Side) : Item := ⟨segment, .handle side⟩

/-- The place of an item in the order of segments, then parts. -/
def rank (item : Item) : Nat := 3 * item.segment.number + item.part.rank

end Item

/-- A selected item. -/
structure Selected (α : Type) where
  item : Item
  /-- The time at which it was added. -/
  addedAt : Nat
  /-- The point from which it is dragged. -/
  frozen : Option (Point α)
deriving BEq

/-- Puts a selected item before the first one of a higher rank. -/
def insertByRank {α : Type} (entry : Selected α) : List (Selected α) → List (Selected α)
  | [] => [entry]
  | head :: rest =>
    if entry.item.rank < head.item.rank then entry :: head :: rest
    else head :: insertByRank entry rest

/-- Ranks grow from left to right. -/
def RankedList {α : Type} (entries : List (Selected α)) : Prop :=
  entries.Pairwise fun first second => first.item.rank < second.item.rank

/-- Inserting keeps what was there and adds the new entry. -/
theorem mem_insertByRank {α : Type} {entry other : Selected α} {entries : List (Selected α)} :
    other ∈ insertByRank entry entries ↔ other = entry ∨ other ∈ entries := by
  induction entries with
  | nil => simp [insertByRank]
  | cons head rest ih =>
    unfold insertByRank
    split
    · simp
    · simp [ih, or_left_comm]

/-- Inserting an entry of a new rank keeps the order. -/
theorem rankedList_insertByRank {α : Type} {entry : Selected α} {entries : List (Selected α)}
    (ranked : RankedList entries)
    (fresh : ∀ other ∈ entries, other.item.rank ≠ entry.item.rank) :
    RankedList (insertByRank entry entries) := by
  induction entries with
  | nil => simp [insertByRank, RankedList]
  | cons head rest ih =>
    obtain ⟨above, ranked⟩ := List.pairwise_cons.mp ranked
    unfold insertByRank
    split
    case isTrue below =>
      refine List.pairwise_cons.mpr ⟨fun other member => ?_, List.pairwise_cons.mpr ⟨above, ranked⟩⟩
      rcases List.mem_cons.mp member with rfl | member
      · exact below
      · exact Nat.lt_trans below (above other member)
    case isFalse notBelow =>
      refine List.pairwise_cons.mpr ⟨fun other member => ?_,
        ih ranked fun other member => fresh other (List.mem_cons_of_mem _ member)⟩
      rcases mem_insertByRank.mp member with rfl | member
      · have := fresh head List.mem_cons_self
        omega
      · exact above other member

/-- Selected items in order, none twice. -/
structure Selection (α : Type) where
  entries : List (Selected α)
  ranked : RankedList entries

namespace Selection

variable {α : Type}

/-- Nothing is selected. -/
def empty : Selection α := ⟨[], List.Pairwise.nil⟩

/-- Two selections have equal entries. -/
def beq [BEq α] (s t : Selection α) : Bool := s.entries == t.entries

/-- The number of selected items. -/
def size (s : Selection α) : Nat := s.entries.length

/-- Nothing is selected. -/
def isEmpty (s : Selection α) : Bool := s.entries.isEmpty

/-- The selected items in order. -/
def items (s : Selection α) : List Item := s.entries.map (·.item)

/-- The entry of an item. -/
def find? (s : Selection α) (item : Item) : Option (Selected α) :=
  s.entries.find? fun entry => entry.item.rank = item.rank

/-- The item is selected. -/
def contains (s : Selection α) (item : Item) : Bool :=
  s.entries.any fun entry => entry.item.rank = item.rank

/-- The segments whose anchor is selected. -/
def anchors (s : Selection α) : List SegmentId :=
  (s.items.filter fun item => item.part = .anchor).map (·.segment)

/-- Selects an item. One that is selected already keeps its time. -/
def insert (s : Selection α) (item : Item) (now : Nat) : Selection α :=
  if present : s.contains item then s
  else
    { entries := insertByRank ⟨item, now, none⟩ s.entries
      ranked := by
        refine rankedList_insertByRank s.ranked fun other member same => present ?_
        exact List.any_eq_true.mpr ⟨other, member, decide_eq_true same⟩ }

/-- Keeps the items that pass a test. -/
def retain (s : Selection α) (keep : Item → Bool) : Selection α where
  entries := s.entries.filter fun entry => keep entry.item
  ranked := s.ranked.filter _

/-- Takes an item out of the selection. -/
def remove (s : Selection α) (item : Item) : Selection α :=
  s.retain fun other => other.rank ≠ item.rank

/-- Takes out every part of a segment. -/
def removeSegment (s : Selection α) (segment : SegmentId) : Selection α :=
  s.retain fun item => item.segment ≠ segment

/-- Takes an item out when it is selected, and selects it when it is not. -/
def toggle (s : Selection α) (item : Item) (now : Nat) : Selection α :=
  if s.contains item then s.remove item else s.insert item now

/-- Selects an item and nothing else. -/
def only (item : Item) (now : Nat) : Selection α := empty.insert item now

/-- The time at which an item was added. -/
def addedAt? (s : Selection α) (item : Item) : Option Nat := (s.find? item).map (·.addedAt)

/-- The item was added less than `window` before `now`, or later than that. -/
def isRecent (s : Selection α) (item : Item) (now window : Nat) : Bool :=
  (s.addedAt? item).any fun added => now - added < window

/-- Remembers a point for every item, or that there is none. -/
def freeze (s : Selection α) (pointOf : Item → Option (Point α)) : Selection α where
  entries := s.entries.map fun entry => { entry with frozen := pointOf entry.item }
  ranked := by
    unfold RankedList
    rw [List.pairwise_map]
    exact s.ranked

/-- The point remembered for an item. -/
def frozen? (s : Selection α) (item : Item) : Option (Point α) := (s.find? item).bind (·.frozen)

end Selection

end Easing
