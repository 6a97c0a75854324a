/-
**A snapshot tells the geometry of a path.**

Numbers are written without commas and braces, so the text of a knot can be cut where it was put
together. Two paths with finite coordinates and one snapshot have the same knots.

* `LawfulNumeral`: what a snapshot needs to know of the numbers in it; doubles have it.
* `coordinatesText_append`, `Knot.snapshot_append`: a text and what follows it can be told apart.
* `snapshotText_injective`: knots of the same text are the same.
-/
import Easing.Path.Basic
import Easing.Proofs.Decimal.Text

set_option linter.unusedSectionVars false

namespace Easing

/-- A scalar type whose finite values can be read off a snapshot. -/
class LawfulNumeral (α : Type) [Scalar α] [Numeral α] : Prop where
  snapshot_injective : ∀ {a b : α}, Scalar.isFinite a = true → Scalar.isFinite b = true →
    Numeral.snapshot a = Numeral.snapshot b → a = b
  /-- Nothing in a number ends it. -/
  snapshot_bare : ∀ {a : α}, Scalar.isFinite a = true →
    ',' ∉ (Numeral.snapshot a).toList ∧ '\x7d' ∉ (Numeral.snapshot a).toList

instance : LawfulNumeral Float where
  snapshot_injective finite finite' same := Decimal.Layout.write_injective _ finite finite' same
  snapshot_bare := by
    intro a finite
    constructor
    · intro member
      have mark := Decimal.Layout.isMark_of_mem_write Decimal.snapshotLayout finite member
      unfold Decimal.Spelling.IsMark at mark
      revert mark
      decide
    · intro member
      have mark := Decimal.Layout.isMark_of_mem_write Decimal.snapshotLayout finite member
      unfold Decimal.Spelling.IsMark at mark
      revert mark
      decide

open LawfulNumeral

/-! ### Finite coordinates -/

section Finite

variable {α : Type} [Scalar α]

/-- All six coordinates are finite. -/
structure Knot.IsFinite (knot : Knot α) : Prop where
  x : Scalar.isFinite knot.point.x = true
  y : Scalar.isFinite knot.point.y = true
  inX : Scalar.isFinite knot.handleIn.x = true
  inY : Scalar.isFinite knot.handleIn.y = true
  outX : Scalar.isFinite knot.handleOut.x = true
  outY : Scalar.isFinite knot.handleOut.y = true

instance (knot : Knot α) : Decidable knot.IsFinite :=
  decidable_of_iff
    (Scalar.isFinite knot.point.x = true ∧ Scalar.isFinite knot.point.y = true ∧
      Scalar.isFinite knot.handleIn.x = true ∧ Scalar.isFinite knot.handleIn.y = true ∧
      Scalar.isFinite knot.handleOut.x = true ∧ Scalar.isFinite knot.handleOut.y = true)
    ⟨fun ⟨x, y, inX, inY, outX, outY⟩ => ⟨x, y, inX, inY, outX, outY⟩,
      fun ⟨x, y, inX, inY, outX, outY⟩ => ⟨x, y, inX, inY, outX, outY⟩⟩

/-- All coordinates of the path are finite. -/
def Path.IsFinite (path : Path α) : Prop := ∀ knot ∈ path.knots, knot.IsFinite

instance (path : Path α) : Decidable path.IsFinite :=
  inferInstanceAs (Decidable (∀ knot ∈ path.knots, knot.IsFinite))

end Finite

/-! ### Cutting a snapshot -/

section Cutting

variable {α : Type} [Scalar α] [Numeral α] [LawfulNumeral α]

/-- Two texts that end at their first mark are cut there. -/
theorem append_mark_injective {mark : Char} {front front' back back' : List Char}
    (absent : mark ∉ front) (absent' : mark ∉ front')
    (same : front ++ mark :: back = front' ++ mark :: back') : front = front' ∧ back = back' := by
  have cut := congrArg (Decimal.cut mark) same
  rwa [Decimal.cut_append absent, Decimal.cut_append absent', Prod.mk.injEq] at cut

theorem toList_coordinatesText (x y : α) (rest : List Char) :
    (coordinatesText x y).toList ++ rest =
      "\x7b\"x\":".toList ++ ((Numeral.snapshot x).toList ++ ',' ::
        ("\"y\":".toList ++ ((Numeral.snapshot y).toList ++ '\x7d' :: rest))) := by
  unfold coordinatesText
  simp only [String.toList_append, List.append_assoc]
  rfl

theorem coordinatesText_append {x y x' y' : α} {rest rest' : List Char}
    (finiteX : Scalar.isFinite x = true) (finiteY : Scalar.isFinite y = true)
    (finiteX' : Scalar.isFinite x' = true) (finiteY' : Scalar.isFinite y' = true)
    (same : (coordinatesText x y).toList ++ rest = (coordinatesText x' y').toList ++ rest') :
    x = x' ∧ y = y' ∧ rest = rest' := by
  rw [toList_coordinatesText, toList_coordinatesText] at same
  obtain ⟨first, same⟩ := append_mark_injective (snapshot_bare finiteX).1
    (snapshot_bare finiteX').1 (List.append_cancel_left same)
  obtain ⟨second, same⟩ := append_mark_injective (snapshot_bare finiteY).2
    (snapshot_bare finiteY').2 (List.append_cancel_left same)
  exact ⟨snapshot_injective finiteX finiteX' (String.toList_inj.mp first),
    snapshot_injective finiteY finiteY' (String.toList_inj.mp second), same⟩

theorem Knot.snapshot_append {knot knot' : Knot α} {rest rest' : List Char}
    (finite : knot.IsFinite) (finite' : knot'.IsFinite)
    (same : knot.snapshot.toList ++ rest = knot'.snapshot.toList ++ rest') :
    knot = knot' ∧ rest = rest' := by
  unfold Knot.snapshot at same
  simp only [String.toList_append, List.append_assoc] at same
  obtain ⟨x, y, same⟩ := coordinatesText_append finite.x finite.y finite'.x finite'.y
    (List.append_cancel_left same)
  obtain ⟨inX, inY, same⟩ := coordinatesText_append finite.inX finite.inY finite'.inX finite'.inY
    (List.append_cancel_left same)
  obtain ⟨outX, outY, same⟩ := coordinatesText_append finite.outX finite.outY finite'.outX
    finite'.outY (List.append_cancel_left same)
  refine ⟨?_, List.append_cancel_left same⟩
  obtain ⟨⟨_, _⟩, ⟨_, _⟩, ⟨_, _⟩⟩ := knot
  obtain ⟨⟨_, _⟩, ⟨_, _⟩, ⟨_, _⟩⟩ := knot'
  simp only at x y inX inY outX outY
  rw [x, y, inX, inY, outX, outY]

/-- The knots after the first one, each after a comma, and the closing bracket. -/
def tailText (knots : List (Knot α)) : List Char :=
  knots.flatMap (fun knot => ',' :: knot.snapshot.toList) ++ [']']

theorem tailText_injective {knots knots' : List (Knot α)} (finite : ∀ knot ∈ knots, knot.IsFinite)
    (finite' : ∀ knot ∈ knots', knot.IsFinite) (same : tailText knots = tailText knots') :
    knots = knots' := by
  induction knots generalizing knots' with
  | nil =>
    cases knots' with
    | nil => rfl
    | cons knot' rest' => simp [tailText] at same
  | cons knot rest ih =>
    cases knots' with
    | nil => simp [tailText] at same
    | cons knot' rest' =>
      simp only [tailText, List.flatMap_cons, List.cons_append, List.append_assoc,
        List.cons.injEq, true_and] at same
      obtain ⟨rfl, later⟩ := Knot.snapshot_append (finite knot List.mem_cons_self)
        (finite' knot' List.mem_cons_self) same
      rw [ih (fun other member => finite other (List.mem_cons_of_mem _ member))
        (fun other member => finite' other (List.mem_cons_of_mem _ member)) later]

theorem toList_intercalate_snapshot (knot : Knot α) (rest : List (Knot α)) :
    (String.intercalate "," ((knot :: rest).map Knot.snapshot)).toList ++ [']'] =
      knot.snapshot.toList ++ tailText rest := by
  induction rest generalizing knot with
  | nil => rfl
  | cons next rest ih =>
    rw [List.map_cons, List.map_cons, String.intercalate_cons_cons, String.toList_append,
      String.toList_append, ← List.map_cons, List.append_assoc, ih]
    simp [tailText]

/-- **Knots of the same text are the same.** -/
theorem snapshotText_injective {knots knots' : List (Knot α)}
    (finite : ∀ knot ∈ knots, knot.IsFinite) (finite' : ∀ knot ∈ knots', knot.IsFinite)
    (same : snapshotText knots = snapshotText knots') : knots = knots' := by
  have cut := congrArg String.toList same
  unfold snapshotText at cut
  rw [String.toList_append, String.toList_append, String.toList_append, String.toList_append,
    List.append_assoc, List.append_assoc] at cut
  have inner := List.append_cancel_left cut
  rw [show "]".toList = [']'] from rfl] at inner
  -- a knot begins with a brace, the end of the list is a bracket
  have some : ∀ (knot : Knot α) (rest : List Char), [']'] ≠ knot.snapshot.toList ++ rest := by
    intro knot rest same
    unfold Knot.snapshot at same
    simp only [String.toList_append, List.append_assoc] at same
    exact absurd (List.cons.inj same).1 (by decide)
  cases knots with
  | nil =>
    cases knots' with
    | nil => rfl
    | cons knot' rest' =>
      rw [toList_intercalate_snapshot] at inner
      exact absurd inner (some knot' _)
  | cons knot rest =>
    rw [toList_intercalate_snapshot] at inner
    cases knots' with
    | nil => exact absurd inner.symm (some knot _)
    | cons knot' rest' =>
      rw [toList_intercalate_snapshot] at inner
      obtain ⟨rfl, later⟩ := Knot.snapshot_append (finite knot List.mem_cons_self)
        (finite' knot' List.mem_cons_self) inner
      rw [tailText_injective (fun other member => finite other (List.mem_cons_of_mem _ member))
        (fun other member => finite' other (List.mem_cons_of_mem _ member)) later]

/-- Paths of the same snapshot have the same knots. -/
theorem Path.knots_eq_of_snapshot {path other : Path α} (finite : path.IsFinite)
    (finite' : other.IsFinite) (same : path.snapshot = other.snapshot) : path.knots = other.knots :=
  snapshotText_injective finite finite' same

end Cutting

end Easing
