/-
**One drag of the selection.**

The items are moved one after another on the half-moved path. Each anchor that moves reads its
bounds off anchors that stay, so it does not matter when its turn comes, and anchors of one block
share their bounds.

* `Session.moveItem_spec`: what moving one item does to each segment.
* `Session.Progress`: what has become of the path after some of the moves, and
  `Session.foldlM_moveItem`: after all of them.
* `Session.Progress.ascending`: the path stays in order when the targets of its anchors are.
-/
import Easing.Proofs.Handle
import Easing.Proofs.Path.Room

set_option linter.unusedSectionVars false

namespace Easing

theorem Item.rank_injective {item item' : Item} (same : item.rank = item'.rank) : item = item' := by
  obtain ⟨⟨number⟩, part⟩ := item
  obtain ⟨⟨number'⟩, part'⟩ := item'
  have small : ∀ part : Part, part.rank < 3 := by
    intro part
    rcases part with _ | _ | _ <;> decide
  have first := small part
  have second := small part'
  have numbers : number = number' := by
    simp only [Item.rank] at same
    omega
  have parts : part.rank = part'.rank := by
    simp only [Item.rank] at same
    omega
  have : part = part' := by
    rcases part with _ | _ | _ <;> rcases part' with _ | _ | _ <;> first | rfl | cases parts
  rw [numbers, this]

theorem Item.eq_anchor {item : Item} {id : SegmentId} (same : id = item.segment)
    (part : item.part = .anchor) : item = Item.anchor id := by
  rw [Item.anchor, same, ← part]

theorem Selection.contains_iff {α : Type} {s : Selection α} {item : Item} :
    s.contains item = true ↔ ∃ entry ∈ s.entries, entry.item = item := by
  unfold Selection.contains
  rw [List.any_eq_true]
  refine exists_congr fun entry => and_congr_right fun _ => ?_
  rw [decide_eq_true_eq]
  exact ⟨Item.rank_injective, congrArg Item.rank⟩

namespace Session

open Scalar OrderedScalar Easing.Path

variable {α : Type} [Scalar α]

/-- The anchor of a segment is selected. -/
def anchorSelected (selection : Selection α) (id : SegmentId) : Bool :=
  selection.contains (Item.anchor id)

theorem mem_moves {selection : Selection α} {move : Item × Point α} :
    move ∈ moves selection ↔
      ∃ entry ∈ selection.entries, entry.item = move.1 ∧ entry.frozen = some move.2 := by
  unfold moves
  rw [List.mem_filterMap]
  refine exists_congr fun entry => and_congr_right fun _ => ?_
  rw [Option.map_eq_some_iff]
  constructor
  · rintro ⟨point, frozen, rfl⟩
    exact ⟨rfl, frozen⟩
  · rintro ⟨item, frozen⟩
    exact ⟨move.2, frozen, by rw [item]⟩

/-- What is moved is selected. -/
theorem contains_of_mem_moves {selection : Selection α} {move : Item × Point α}
    (member : move ∈ moves selection) : selection.contains move.1 = true := by
  obtain ⟨entry, inside, item, -⟩ := mem_moves.mp member
  exact Selection.contains_iff.mpr ⟨entry, inside, item⟩

/-! ### Moving one item -/

/-- What moving an item to a point does to a segment. -/
structure MovedBy (item : Item) (point : Point α) (segment changed : Segment α) : Prop where
  id : changed.id = segment.id
  others : segment.id ≠ item.segment → changed = segment
  handles : item.part ≠ .anchor → changed.point = segment.point
  anchor : segment.id = item.segment → item.part = .anchor → changed.point = point

section Moving

variable {path : Path α}

/-- The point that the anchor of an item is moved to. -/
def placeOf (selection : Selection α) (path : Path α) (item : Item) (target : Point α) : Point α :=
  ⟨anchorX path selection item.segment target.x, target.y⟩

/-- Moving an item changes one segment at most. -/
theorem moveItem_spec (selection : Selection α) (paired : Bool) (item : Item) (target : Point α)
    (distinct : path.Distinct) (width : 0 ≤ path.domain) :
    ∃ other, moveItem selection paired path item target = .ok other ∧
      other.domain = path.domain ∧
      List.Forall₂ (MovedBy item (placeOf selection path item target)) path.segments
        other.segments := by
  have mapped : ∀ change : Segment α → Segment α,
      (∀ segment ∈ path.segments, segment.id = item.segment →
        MovedBy item (placeOf selection path item target) segment (change segment)) →
      List.Forall₂ (MovedBy item (placeOf selection path item target)) path.segments
        (path.modify item.segment change).segments := by
    intro change spec
    rw [distinct.modify, List.forall₂_map_right_iff, List.forall₂_same]
    intro segment member
    split
    case isTrue same => exact spec segment member same
    case isFalse other => exact ⟨rfl, fun _ => rfl, fun _ => rfl, fun same => absurd same other⟩
  unfold moveItem
  cases found : path.find? item.segment with
  | none =>
    refine ⟨path, rfl, rfl, ?_⟩
    rw [List.forall₂_same]
    intro segment member
    have other : segment.id ≠ item.segment := by
      simpa using List.find?_eq_none.mp found segment member
    exact ⟨rfl, fun _ => rfl, fun _ => rfl, fun same => absurd same other⟩
  | some segment =>
    obtain ⟨member, isSegment⟩ := find?_eq_some found
    cases part : item.part with
    | anchor =>
      refine ⟨_, rfl, rfl, mapped _ fun other member' same => ?_⟩
      exact ⟨rfl, fun different => absurd same different, fun handle => absurd part handle,
        fun _ _ => rfl⟩
    | handle side =>
      obtain ⟨changed, dragged, only⟩ := dragHandle_ok width segment side target paired
      simp only [dragged]
      refine ⟨_, rfl, rfl, mapped _ fun other member' same => ?_⟩
      obtain rfl : other = segment := distinct.eq_of_id member' member (same.trans isSegment.symm)
      refine ⟨only.id, fun different => absurd same different, fun _ => only.point, fun _ anchor => ?_⟩
      rw [part] at anchor
      cases anchor

end Moving

theorem getElem?_of_forall₂ {β : Type} {related : β → β → Prop} {list list' : List β} {index : Nat}
    {b b' : β} (all : List.Forall₂ related list list') (found : list[index]? = some b)
    (found' : list'[index]? = some b') : related b b' := by
  induction all generalizing index with
  | nil => simp at found
  | cons head _ ih =>
    cases index with
    | zero =>
      rw [List.getElem?_cons_zero, Option.some.injEq] at found found'
      rwa [← found, ← found']
    | succ index => exact ih found found'

theorem ids_of_forall₂ {item : Item} {point : Point α} {path other : Path α}
    (all : List.Forall₂ (MovedBy item point) path.segments other.segments) :
    other.ids = path.ids := by
  unfold Path.ids
  generalize path.segments = before at all
  generalize other.segments = after at all
  induction all with
  | nil => rfl
  | cons head _ ih => rw [List.map_cons, List.map_cons, head.id, ih]

/-! ### Moving all items -/

section Running

variable [OrderedScalar α] {selection : Selection α} {path other : Path α}
  {target : Point α → Point α} {done : List (Item × Point α)}

/-- The point of an anchor that was moved to a target, between the bounds of its place. -/
def PlacedAt (selection : Selection α) (path : Path α) (index : Nat) (target point : Point α) :
    Prop :=
  ∃ low high, Alike (path.lowAt (anchorSelected selection) index) low ∧
    Alike (path.highAt (anchorSelected selection) index) high ∧
    point = ⟨confine low high target.x, target.y⟩

/-- What has become of a path after some of the moves. -/
structure Progress (selection : Selection α) (target : Point α → Point α) (path : Path α)
    (done : List (Item × Point α)) (other : Path α) : Prop where
  still : StandsStill (anchorSelected selection) path other
  untouched : ∀ (index : Nat) (segment changed : Segment α), path.segments[index]? = some segment →
    other.segments[index]? = some changed →
    (∀ move ∈ done, move.1.segment ≠ segment.id) → changed = segment
  unmoved : ∀ (index : Nat) (segment changed : Segment α), path.segments[index]? = some segment →
    other.segments[index]? = some changed →
    (∀ move ∈ done, move.1 ≠ Item.anchor segment.id) → changed.point = segment.point
  placed : ∀ (index : Nat) (segment changed : Segment α), path.segments[index]? = some segment →
    other.segments[index]? = some changed → path.isFixed (anchorSelected selection) index = false →
    (∃ move ∈ done, move.1 = Item.anchor segment.id) →
    ∃ frozen, (Item.anchor segment.id, frozen) ∈ done ∧
      PlacedAt selection path index (target frozen) changed.point

theorem Progress.start (ascending : path.Ascending) (pinned : path.Pinned) :
    Progress selection target path [] path where
  still :=
    { ids := rfl
      domain := rfl
      fixed := by
        intro index segment segment' _ found found'
        obtain rfl := Option.some.inj (found.symm.trans found')
        exact Alike.refl (ascending.isNumber pinned.two _ (List.mem_of_getElem? found)) }
  untouched := by
    intro index segment changed found found' _
    exact Option.some.inj (found'.symm.trans found)
  unmoved := by
    intro index segment changed found found' _
    rw [Option.some.inj (found'.symm.trans found)]
  placed := by
    rintro index segment changed _ _ _ ⟨move, member, -⟩
    exact absurd member List.not_mem_nil

/-- The place of an anchor, by its index. -/
theorem placeOf_eq {item : Item} {segment : Segment α} {index : Nat} {point : Point α}
    (distinct : path.Distinct) (found : path.segments[index]? = some segment)
    (same : segment.id = item.segment) :
    placeOf selection path item point =
      ⟨if index = 0 then 0 else if index + 1 = path.size then path.domain
        else confine (path.lowAt (anchorSelected selection) index)
          (path.highAt (anchorSelected selection) index) point.x, point.y⟩ := by
  have first := isFirst_iff found distinct
  have last := isLast_iff found distinct
  have room : path.bounds? segment.id (fun other => selection.contains (Item.anchor other)) =
      some (path.lowAt (anchorSelected selection) index,
        path.highAt (anchorSelected selection) index) := bounds?_eq (distinct.index? found)
  unfold placeOf anchorX
  simp only [← same, first, last, room, Option.getD_some]
  rfl

/-- An index that is neither first nor last and whose anchor is selected moves. -/
theorem isFixed_eq_false_iff {segment : Segment α} {index : Nat} {moving : SegmentId → Bool}
    (found : path.segments[index]? = some segment) :
    path.isFixed moving index = false ↔
      index ≠ 0 ∧ index + 1 ≠ path.size ∧ moving segment.id = true := by
  unfold isFixed
  rw [found]
  simp [and_assoc]

/-- An anchor is where it was when another item is moved. -/
theorem MovedBy.point_of_ne {item : Item} {point : Point α} {segment changed : Segment α}
    (moved : MovedBy item point segment changed) (other : item ≠ Item.anchor segment.id) :
    changed.point = segment.point := by
  by_cases part : item.part = .anchor
  · rw [moved.others fun same => other (Item.eq_anchor same part)]
  · exact moved.handles part

/-- One more move. -/
theorem Progress.step {item : Item} (paired : Bool) (frozen : Point α)
    (progress : Progress selection target path done other) (distinct : path.Distinct)
    (pinned : path.Pinned) (width : 0 ≤ path.domain)
    (selected : selection.contains item = true) :
    ∃ next, moveItem selection paired other item (target frozen) = .ok next ∧
      Progress selection target path (done ++ [(item, frozen)]) next := by
  have still := progress.still
  have distinct' := still.distinct distinct
  obtain ⟨next, moved, domain, all⟩ := moveItem_spec selection paired item (target frozen) distinct'
    (by rwa [still.domain])
  refine ⟨next, moved, ?_, ?_, ?_, ?_⟩
  · refine ⟨(ids_of_forall₂ all).trans still.ids, domain.trans still.domain, ?_⟩
    intro index segment changed isFixed found found'
    obtain ⟨middle, between, sameId⟩ := getElem?_of_ids still.ids found
    have step := getElem?_of_forall₂ all between found'
    have alike := still.fixed index segment middle isFixed found between
    by_cases anchor : item = Item.anchor middle.id
    · -- an anchor that stays and is moved nevertheless is one of the two ends
      have point := step.anchor (by rw [anchor]; rfl) (by rw [anchor]; rfl)
      rw [placeOf_eq distinct' between (by rw [anchor]; rfl)] at point
      have isEnd : index = 0 ∨ index + 1 = path.size := by
        by_contra inner
        rw [not_or] at inner
        rw [(isFixed_eq_false_iff found).mpr ⟨inner.1, inner.2, ?_⟩] at isFixed
        · cases isFixed
        · rw [anchor, sameId] at selected
          exact selected
      have pinned' := still.pinned pinned
      rw [← size_eq_of_ids still.ids] at isEnd
      rw [point]
      refine alike.trans ?_
      split
      case isTrue start =>
        subst start
        exact beq_iff.mp (pinned'.first middle (by rw [List.head?_eq_getElem?, between]))
      case isFalse notStart =>
        have last := isEnd.resolve_left notStart
        rw [if_pos last]
        refine beq_iff.mp (pinned'.last middle ?_)
        rw [List.getLast?_eq_getElem?, ← between]
        congr 1
        have : other.size = other.segments.length := rfl
        omega
    · rw [step.point_of_ne anchor]
      exact alike
  · intro index segment changed found found' others
    obtain ⟨middle, between, sameId⟩ := getElem?_of_ids still.ids found
    have step := getElem?_of_forall₂ all between found'
    rw [step.others ?_]
    · exact progress.untouched index segment middle found between fun move member =>
        others move (List.mem_append_left _ member)
    · rw [sameId]
      exact (others (item, frozen) (by simp)).symm
  · intro index segment changed found found' others
    obtain ⟨middle, between, sameId⟩ := getElem?_of_ids still.ids found
    have step := getElem?_of_forall₂ all between found'
    rw [step.point_of_ne (by rw [sameId]; exact others (item, frozen) (by simp))]
    exact progress.unmoved index segment middle found between fun move member =>
      others move (List.mem_append_left _ member)
  · intro index segment changed found found' moves some
    obtain ⟨middle, between, sameId⟩ := getElem?_of_ids still.ids found
    have step := getElem?_of_forall₂ all between found'
    by_cases anchor : item = Item.anchor segment.id
    · refine ⟨frozen, by rw [← anchor]; simp, ?_⟩
      have point := step.anchor (by rw [anchor]; exact sameId) (by rw [anchor]; rfl)
      obtain ⟨notFirst, notLast, -⟩ := (isFixed_eq_false_iff found).mp moves
      rw [placeOf_eq distinct' between (by rw [anchor]; exact sameId), if_neg notFirst,
        if_neg (by rwa [size_eq_of_ids still.ids])] at point
      obtain ⟨bound, -⟩ := List.getElem?_eq_some_iff.mp found
      exact ⟨_, _, still.lowAt (Nat.le_of_lt bound), still.highAt (isNumber_right width), point⟩
    · rw [step.point_of_ne (by rwa [sameId])]
      obtain ⟨move, member, same⟩ := some
      have earlier : move ∈ done := by
        rcases List.mem_append.mp member with earlier | now
        · exact earlier
        · rw [List.mem_singleton] at now
          rw [now] at same
          exact absurd same anchor
      obtain ⟨first, inside, place⟩ :=
        progress.placed index segment middle found between moves ⟨move, earlier, same⟩
      exact ⟨first, List.mem_append_left _ inside, place⟩

/-- All moves, one after another. -/
theorem foldlM_moveItem (paired : Bool) {rest : List (Item × Point α)}
    (progress : Progress selection target path done other) (distinct : path.Distinct)
    (pinned : path.Pinned) (width : 0 ≤ path.domain)
    (selected : ∀ move ∈ rest, selection.contains move.1 = true) :
    ∃ last, rest.foldlM (fun path move => moveItem selection paired path move.1 (target move.2))
        other = .ok last ∧ Progress selection target path (done ++ rest) last := by
  induction rest generalizing done other with
  | nil => exact ⟨other, rfl, by rwa [List.append_nil]⟩
  | cons move rest ih =>
    obtain ⟨next, moved, progress'⟩ := progress.step paired move.2 distinct pinned width
      (selected move List.mem_cons_self)
    obtain ⟨last, run, all⟩ := ih progress' fun other member =>
      selected other (List.mem_cons_of_mem _ member)
    refine ⟨last, ?_, by rwa [List.append_assoc] at all⟩
    rw [List.foldlM_cons, moved]
    exact run

/-- A path is in order when neighbours are. -/
theorem ascending_of_adjacent
    (adjacent : ∀ (index : Nat) (segment next : Segment α), path.segments[index]? = some segment →
      path.segments[index + 1]? = some next → segment.point.x ≤ next.point.x) :
    path.Ascending := by
  let related (left right : Segment α) : Prop := left.point.x ≤ right.point.x
  let transitive : Trans related related related := ⟨fun first second => le_trans first second⟩
  have chain : path.segments.IsChain related := by
    rw [List.isChain_iff_getElem]
    intro index bound
    exact adjacent index _ _ (List.getElem?_eq_getElem _) (List.getElem?_eq_getElem bound)
  exact chain.pairwise

/-- **The path stays in order** when every anchor that may move was moved, and the targets are in
order. -/
theorem Progress.ascending (progress : Progress selection target path done other)
    (ascending : path.Ascending) (pinned : path.Pinned)
    (complete : ∀ (index : Nat) (segment : Segment α), path.segments[index]? = some segment →
      path.isFixed (anchorSelected selection) index = false →
      ∃ move ∈ done, move.1 = Item.anchor segment.id)
    (ordered : ∀ (index : Nat) (segment next : Segment α) (first second : Point α),
      path.segments[index]? = some segment → path.segments[index + 1]? = some next →
      (Item.anchor segment.id, first) ∈ done → (Item.anchor next.id, second) ∈ done →
      Below (target first).x (target second).x) :
    other.Ascending := by
  have still := progress.still
  refine ascending_of_adjacent fun index changed changed' found' foundNext' => ?_
  obtain ⟨segment, found, -⟩ := getElem?_of_ids still.ids.symm found'
  obtain ⟨next, foundNext, -⟩ := getElem?_of_ids still.ids.symm foundNext'
  obtain ⟨bound, -⟩ := List.getElem?_eq_some_iff.mp foundNext
  have length : path.size = path.segments.length := rfl
  have step := ascending.le found foundNext (Nat.lt_succ_self index)
  have low : path.lowAt (anchorSelected selection) (index + 1) =
      if path.isFixed (anchorSelected selection) index then segment.point.x
      else path.lowAt (anchorSelected selection) index := by
    rw [lowAt_succ, anchorX?_eq found, Option.getD_some]
  have high : path.highAt (anchorSelected selection) index =
      if path.isFixed (anchorSelected selection) (index + 1) then next.point.x
      else path.highAt (anchorSelected selection) (index + 1) := by
    rw [highAt_eq (by omega), anchorX?_eq foundNext, Option.getD_some]
  have room : ∀ (at? : Nat) (inside : Segment α), path.segments[at?]? = some inside →
      path.lowAt (anchorSelected selection) at? ≤ path.highAt (anchorSelected selection) at? :=
    fun at? inside here =>
      le_trans (lowAt_le ascending pinned here) (le_highAt ascending pinned here)
  cases isFixed : path.isFixed (anchorSelected selection) index with
  | true =>
    have alike := still.fixed index segment changed isFixed found found'
    cases isFixed' : path.isFixed (anchorSelected selection) (index + 1) with
    | true =>
      have alike' := still.fixed (index + 1) next changed' isFixed' foundNext foundNext'
      exact le_trans alike.2 (le_trans step alike'.1)
    | false =>
      -- the left neighbour is the lower bound of the right one
      obtain ⟨frozen, -, lower, upper, lowAlike, highAlike, point⟩ := progress.placed _ _ _ foundNext
        foundNext' isFixed' (complete _ _ foundNext isFixed')
      have ordered' := le_trans lowAlike.2 (le_trans (room _ _ foundNext) highAlike.1)
      rw [low, isFixed, if_pos rfl] at lowAlike
      rw [point]
      exact le_trans alike.2 (le_trans lowAlike.1 (le_confine ordered'))
  | false =>
    obtain ⟨frozen, moved, lower, upper, lowAlike, highAlike, point⟩ := progress.placed _ _ _ found
      found' isFixed (complete _ _ found isFixed)
    have ordered' := le_trans lowAlike.2 (le_trans (room _ _ found) highAlike.1)
    cases isFixed' : path.isFixed (anchorSelected selection) (index + 1) with
    | true =>
      -- the right neighbour is the upper bound of the left one
      have alike' := still.fixed (index + 1) next changed' isFixed' foundNext foundNext'
      rw [high, isFixed', if_pos rfl] at highAlike
      rw [point]
      exact le_trans (confine_le ordered') (le_trans highAlike.2 alike'.1)
    | false =>
      -- both belong to one block and have the same bounds
      obtain ⟨frozen', moved', lower', upper', lowAlike', highAlike', point'⟩ :=
        progress.placed _ _ _ foundNext foundNext' isFixed' (complete _ _ foundNext isFixed')
      rw [low, isFixed, if_neg Bool.false_ne_true] at lowAlike'
      rw [high, isFixed', if_neg Bool.false_ne_true] at highAlike
      rw [point, point']
      exact confine_mono (ordered _ _ _ _ _ found foundNext moved moved')
        (lowAlike.symm.trans lowAlike') (highAlike.symm.trans highAlike')

end Running

end Session

end Easing
