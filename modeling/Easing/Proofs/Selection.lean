/-
**Selections as maps.**

The entries of a selection are in order and no item has two of them, so looking an item up gives its
only entry: the time at which it was added, and the point from which it is dragged. What a change of
membership does to the times is told item by item.

* `Selection.find?_eq_some_iff`: looking up an item.
* `Selection.addedAt?_insert`, `addedAt?_remove`, `addedAt?_toggle`, `addedAt?_freeze`: the times
  after a change.
* `Selection.frozen?_eq_some_iff`: the point of an item.
-/
import Easing.Proofs.Session.Transform

set_option linter.unusedSectionVars false

namespace Easing

namespace Selection

variable {α : Type} {s : Selection α} {item other : Item} {time : Nat}

/-! ### Looking up -/

/-- An item has one entry at most. -/
theorem eq_of_item {entry entry' : Selected α} (member : entry ∈ s.entries)
    (member' : entry' ∈ s.entries) (same : entry.item = entry'.item) : entry = entry' := by
  have ranks : (s.entries.map fun entry => entry.item.rank).Nodup :=
    List.pairwise_map.mpr (s.ranked.imp Nat.ne_of_lt)
  exact List.inj_on_of_nodup_map ranks member member' (congrArg Item.rank same)

theorem find?_eq_some_iff {entry : Selected α} :
    s.find? item = some entry ↔ entry ∈ s.entries ∧ entry.item = item := by
  have isItem : ∀ other : Selected α, s.find? item = some other → other.item = item :=
    fun other found => Item.rank_injective (of_decide_eq_true (List.find?_some found :))
  constructor
  · exact fun found => ⟨List.mem_of_find?_eq_some found, isItem entry found⟩
  · rintro ⟨member, same⟩
    cases found : s.find? item with
    | none =>
      have absent := List.find?_eq_none.mp found entry member
      exact absurd (decide_eq_true (congrArg Item.rank same)) absent
    | some first =>
      have here := (isItem first found).trans same.symm
      rw [eq_of_item (List.mem_of_find?_eq_some found) member here]

theorem addedAt?_eq_some_iff :
    s.addedAt? item = some time ↔ ∃ entry ∈ s.entries, entry.item = item ∧ entry.addedAt = time := by
  unfold addedAt?
  simp only [Option.map_eq_some_iff, find?_eq_some_iff, and_assoc]

theorem frozen?_eq_some_iff {point : Point α} :
    s.frozen? item = some point ↔
      ∃ entry ∈ s.entries, entry.item = item ∧ entry.frozen = some point := by
  unfold frozen?
  simp only [Option.bind_eq_some_iff, find?_eq_some_iff, and_assoc]

/-- The selected items are those with a time. -/
theorem contains_eq_isSome (s : Selection α) (item : Item) :
    s.contains item = (s.addedAt? item).isSome := by
  rw [Bool.eq_iff_iff, contains_iff, Option.isSome_iff_exists]
  constructor
  · rintro ⟨entry, member, same⟩
    exact ⟨entry.addedAt, addedAt?_eq_some_iff.mpr ⟨entry, member, same, rfl⟩⟩
  · rintro ⟨time, added⟩
    obtain ⟨entry, member, same, -⟩ := addedAt?_eq_some_iff.mp added
    exact ⟨entry, member, same⟩

/-! ### Times after a change -/

theorem addedAt?_freeze (s : Selection α) (pointOf : Item → Option (Point α)) (item : Item) :
    (s.freeze pointOf).addedAt? item = s.addedAt? item := by
  ext time
  rw [addedAt?_eq_some_iff, addedAt?_eq_some_iff]
  constructor
  · rintro ⟨entry, member, same, added⟩
    obtain ⟨before, inside, rfl⟩ := List.mem_map.mp member
    exact ⟨before, inside, same, added⟩
  · rintro ⟨entry, member, same, added⟩
    exact ⟨_, List.mem_map_of_mem member, same, added⟩

theorem addedAt?_remove (s : Selection α) (item other : Item) :
    (s.remove item).addedAt? other = if other = item then none else s.addedAt? other := by
  ext time
  rw [addedAt?_eq_some_iff]
  constructor
  · rintro ⟨entry, member, rfl, rfl⟩
    obtain ⟨inside, kept⟩ := List.mem_filter.mp member
    have apart : entry.item ≠ item := fun same => of_decide_eq_true kept (congrArg Item.rank same)
    rw [if_neg apart]
    exact addedAt?_eq_some_iff.mpr ⟨entry, inside, rfl, rfl⟩
  · intro added
    split at added
    case isTrue => cases added
    case isFalse apart =>
      obtain ⟨entry, inside, rfl, rfl⟩ := addedAt?_eq_some_iff.mp added
      refine ⟨entry, List.mem_filter.mpr ⟨inside, decide_eq_true fun same => ?_⟩, rfl, rfl⟩
      exact apart (Item.rank_injective same)

/-- What is inserted keeps the time that it has, or gets one. -/
theorem addedAt?_insert (s : Selection α) (item other : Item) (now : Nat) :
    (s.insert item now).addedAt? other =
      if other = item then some ((s.addedAt? item).getD now) else s.addedAt? other := by
  unfold insert
  split
  case isTrue present =>
    rw [contains_eq_isSome] at present
    obtain ⟨time, added⟩ := Option.isSome_iff_exists.mp present
    split
    case isTrue same => rw [same, added, Option.getD_some]
    case isFalse => rfl
  case isFalse absent =>
    have none : s.addedAt? item = none := by
      rw [contains_eq_isSome] at absent
      exact Option.not_isSome_iff_eq_none.mp absent
    rw [none, Option.getD_none]
    ext time
    rw [addedAt?_eq_some_iff]
    simp only [mem_insertByRank]
    constructor
    · rintro ⟨entry, rfl | inside, rfl, rfl⟩
      · rw [if_pos rfl]
      · have added : s.addedAt? entry.item = some entry.addedAt :=
          addedAt?_eq_some_iff.mpr ⟨entry, inside, rfl, rfl⟩
        have apart : entry.item ≠ item := by
          intro same
          rw [same, none] at added
          cases added
        rw [if_neg apart, added]
    · intro added
      split at added
      case isTrue same =>
        obtain rfl := Option.some.inj added
        exact ⟨_, .inl rfl, same.symm, rfl⟩
      case isFalse =>
        obtain ⟨entry, inside, same, isTime⟩ := addedAt?_eq_some_iff.mp added
        exact ⟨entry, .inr inside, same, isTime⟩

theorem addedAt?_toggle (s : Selection α) (item other : Item) (now : Nat) :
    (s.toggle item now).addedAt? other =
      if other = item then if s.contains item then none else some now else s.addedAt? other := by
  unfold toggle
  split
  · rw [addedAt?_remove]
  case isFalse absent =>
    rw [contains_eq_isSome] at absent
    rw [addedAt?_insert, Option.not_isSome_iff_eq_none.mp absent, Option.getD_none]

end Selection

end Easing
