/-
**Dragging in exact arithmetic.**

Every item of a list is moved to the target of its point. What is written is told by the targets
and by what is not written: an anchor goes where its bounds let it, and these are read off anchors
that stay; a handle is the reach of its anchor, which has been moved before.

* `Session.movePart`, `Session.carry`, `Session.carryAll`: moving a part of a segment, an item of a
  path, a list of items.
* `Session.Inside`: paths with all anchors in the domain; moving keeps them there.
* `Session.Held`: paths whose ends are where they belong; moving keeps them so.
* `Session.foldlM_moveItem_real`: this is what dragging does.
* `Session.carryAll_frame`, `Session.carryAll_agree`: what is not written, and what is.
-/
import Easing.Proofs.Path.Agreement
import Easing.Proofs.Reach
import Easing.Session.Drag

set_option linter.unusedSectionVars false

namespace Easing

open Easing.Path

namespace Session

/-! ### Moving one part -/

/-- The segment with one handle pulled towards a target. -/
noncomputable def pull (domain : ℝ) (side : Side) (target : Point ℝ) (segment : Segment ℝ) :
    Segment ℝ :=
  segment.setHandle side (reach domain segment.point target)

/-- The segment with one part moved to a target: its anchor, to the given x, or a handle, which
turns the other one when they move as a pair. -/
noncomputable def movePart (domain x : ℝ) (paired : Bool) (part : Part) (target : Point ℝ)
    (segment : Segment ℝ) : Segment ℝ :=
  match part with
  | .anchor => { segment with point := ⟨x, target.y⟩ }
  | .handle side =>
    let pulled := pull domain side target segment
    if paired then pull domain side.opposite (pulled.point - pulled.handle side) pulled else pulled

/-- Moving a part of a segment writes this part, and the other handle when handles move in pairs. -/
def Writes (paired : Bool) (part other : Part) : Prop :=
  other = part ∨ paired = true ∧ ∃ side, part = .handle side ∧ other = .handle side.opposite

section Parts

variable {domain x : ℝ} {paired : Bool} {part : Part} {target : Point ℝ}
  {segment other : Segment ℝ} {free : Part → Prop}

theorem mirrorHandle_real (leader : Side)
    (inside : 0 ≤ segment.point.x ∧ segment.point.x ≤ domain) :
    mirrorHandle segment leader domain =
      .ok (pull domain leader.opposite (segment.point - segment.handle leader) segment) := by
  unfold mirrorHandle
  dsimp only
  rw [clampHandle_real _ _ inside]
  rfl

theorem dragHandle_real (side : Side)
    (inside : 0 ≤ segment.point.x ∧ segment.point.x ≤ domain) :
    dragHandle segment side target domain paired =
      .ok (movePart domain x paired (.handle side) target segment) := by
  have inside' : 0 ≤ (pull domain side target segment).point.x ∧
      (pull domain side target segment).point.x ≤ domain := by
    unfold pull
    rwa [Segment.point_setHandle]
  unfold dragHandle movePart
  rw [clampHandle_real _ _ inside]
  cases paired with
  | false => rfl
  | true => exact mirrorHandle_real side inside'

/-- A pulled handle is told by its anchor and its target. -/
theorem pull_agree {side : Side} (agree : Segment.AgreeBut free segment other)
    (anchored : ¬free .anchor) :
    Segment.AgreeBut (fun part => free part ∧ part ≠ .handle side) (pull domain side target segment)
      (pull domain side target other) := by
  unfold pull
  refine ⟨?_, fun _ => ?_, fun side' bound => ?_⟩
  · rw [Segment.id_setHandle, Segment.id_setHandle, agree.id]
  · rw [Segment.point_setHandle, Segment.point_setHandle, agree.point anchored]
  · rw [Segment.handle_setHandle, Segment.handle_setHandle, agree.point anchored]
    by_cases here : side' = side
    · rw [if_pos here, if_pos here]
    · rw [if_neg here, if_neg here]
      exact agree.handle side' fun loose =>
        bound ⟨loose, fun same => here (Part.handle.inj same)⟩

/-- **What is written is told by what is not**: a moved part by its target, and by its anchor when
it is a handle. -/
theorem movePart_agree (agree : Segment.AgreeBut free segment other)
    (anchored : part ≠ .anchor → ¬free .anchor) :
    Segment.AgreeBut (fun other => free other ∧ ¬Writes paired part other)
      (movePart domain x paired part target segment) (movePart domain x paired part target other) := by
  cases part with
  | anchor =>
    refine ⟨agree.id, fun _ => rfl, fun side bound => agree.handle side fun loose => bound ⟨loose, ?_⟩⟩
    rintro (same | ⟨-, side', same, -⟩) <;> cases same
  | handle side =>
    have fixed : ¬free .anchor := anchored nofun
    have pulled : Segment.AgreeBut (fun part => free part ∧ part ≠ .handle side)
        (pull domain side target segment) (pull domain side target other) := pull_agree agree fixed
    unfold movePart
    dsimp only
    rw [pulled.point fun loose => fixed loose.1, pulled.handle side fun loose => loose.2 rfl]
    cases paired with
    | false =>
      refine pulled.mono fun part loose => ⟨loose.1, ?_⟩
      rintro (same | ⟨both, -⟩)
      · exact loose.2 same
      · cases both
    | true =>
      refine (pull_agree pulled fun loose => fixed loose.1).mono fun part loose => ⟨loose.1.1, ?_⟩
      rintro (same | ⟨-, side', same, opposite⟩)
      · exact loose.1.2 same
      · obtain rfl := Part.handle.inj same
        exact loose.2 opposite

theorem pull_frame (side : Side) : Segment.AgreeBut (fun part => part = .handle side) segment
    (pull domain side target segment) := by
  unfold pull
  refine ⟨Segment.id_setHandle _ _ _, fun _ => Segment.point_setHandle _ _ _, fun side' bound => ?_⟩
  rw [Segment.handle_setHandle, if_neg fun same => bound (congrArg Part.handle same)]

/-- Nothing but what is written has changed. -/
theorem movePart_frame : Segment.AgreeBut (Writes paired part) segment
    (movePart domain x paired part target segment) := by
  cases part with
  | anchor => exact ⟨rfl, fun bound => absurd (.inl rfl) bound, fun _ _ => rfl⟩
  | handle side =>
    have pulled : Segment.AgreeBut (fun part => part = .handle side) segment
        (pull domain side target segment) := pull_frame side
    unfold movePart
    dsimp only
    cases paired with
    | false => exact pulled.mono fun part same => .inl same
    | true =>
      refine (pulled.mono fun part same => .inl same).trans ((pull_frame side.opposite).mono ?_)
      exact fun part same => .inr ⟨rfl, side, rfl, same⟩

end Parts

/-! ### Paths inside their domain, and paths whose ends hold -/

/-- All anchors are in the domain. -/
structure Inside (path : Path ℝ) : Prop where
  width : 0 ≤ path.domain
  anchors : ∀ segment ∈ path.segments, 0 ≤ segment.point.x ∧ segment.point.x ≤ path.domain

/-- The ends are where they belong, and all anchors lie between. -/
structure Held (path : Path ℝ) : Prop where
  two : 2 ≤ path.size
  first : ∀ segment, path.segments[0]? = some segment → segment.point.x = 0
  last : ∀ index segment, index + 1 = path.size → path.segments[index]? = some segment →
    segment.point.x = path.domain
  inside : ∀ segment ∈ path.segments, 0 ≤ segment.point.x ∧ segment.point.x ≤ path.domain

section Holding

variable {path other : Path ℝ} {selection : Selection ℝ} {paired : Bool} {item : Item}
  {target : Point ℝ} {free : Item → Prop}

/-- A path in order holds its ends. -/
theorem held_of_ascending (ascending : path.Ascending) (pinned : path.Pinned) : Held path := by
  have first : ∀ segment, path.segments[0]? = some segment → segment.point.x = 0 := by
    intro segment found
    have same := pinned.first segment (List.head?_eq_getElem?.trans found)
    rwa [Scalar.zero_real, beq_iff_eq] at same
  have last : ∀ index segment, index + 1 = path.size → path.segments[index]? = some segment →
      segment.point.x = path.domain := by
    intro index segment atEnd found
    have place : path.segments.length - 1 = index := by
      unfold size at atEnd
      omega
    have same := pinned.last segment (List.getLast?_eq_getElem?.trans (place ▸ found))
    rwa [beq_iff_eq] at same
  refine ⟨pinned.two, first, last, fun segment member => ?_⟩
  obtain ⟨index, bound, rfl⟩ := List.mem_iff_getElem.mp member
  have ordered := List.pairwise_iff_getElem.mp ascending
  constructor
  · rcases Nat.eq_zero_or_pos index with rfl | positive
    · exact (first _ (List.getElem?_eq_getElem bound)).ge
    · have start : 0 < path.segments.length := Nat.lt_of_le_of_lt (Nat.zero_le _) bound
      exact (first _ (List.getElem?_eq_getElem start)).ge.trans (ordered 0 index start bound positive)
  · rcases Nat.lt_or_ge (index + 1) path.size with inner | atEnd
    · have final : path.size - 1 < path.segments.length := by
        unfold size at inner ⊢
        omega
      refine (ordered index (path.size - 1) bound final (by omega)).trans ?_
      exact (last _ _ (by omega) (List.getElem?_eq_getElem final)).le
    · refine (last index _ ?_ (List.getElem?_eq_getElem bound)).le
      unfold size at atEnd ⊢
      omega

theorem Held.isInside (held : Held path) : Inside path := by
  have start : 0 < path.segments.length := Nat.lt_of_lt_of_le Nat.two_pos held.two
  have first := held.inside _ (List.getElem_mem start)
  exact ⟨first.1.trans first.2, held.inside⟩

/-- A bound of the room of an anchor lies in the domain. -/
theorem Inside.bound (inside : Inside path) (place : Option Nat) {otherwise : ℝ}
    (low : 0 ≤ otherwise) (high : otherwise ≤ path.domain) :
    0 ≤ (place.bind path.anchorX?).getD otherwise ∧
      (place.bind path.anchorX?).getD otherwise ≤ path.domain := by
  cases found : place.bind path.anchorX? with
  | none => exact ⟨low, high⟩
  | some x =>
    obtain ⟨index, -, here⟩ := Option.bind_eq_some_iff.mp found
    obtain ⟨segment, isSegment, rfl⟩ := Option.map_eq_some_iff.mp here
    exact inside.anchors segment (List.mem_of_getElem? isSegment)

/-- What is confined between two numbers of the domain lies in it, in whichever order they are. -/
theorem confine_real_mem {domain low high x : ℝ} (lowInside : 0 ≤ low ∧ low ≤ domain)
    (highInside : 0 ≤ high ∧ high ≤ domain) :
    0 ≤ Scalar.lesser (Scalar.greater x low) high ∧
      Scalar.lesser (Scalar.greater x low) high ≤ domain := by
  have raised : 0 ≤ Scalar.greater x low := by
    show 0 ≤ if x < low then low else x
    split
    · exact lowInside.1
    case isFalse above => exact lowInside.1.trans (not_lt.mp above)
  show 0 ≤ (if high < Scalar.greater x low then high else Scalar.greater x low) ∧
    (if high < Scalar.greater x low then high else Scalar.greater x low) ≤ domain
  split
  · exact highInside
  case isFalse below => exact ⟨raised, (not_lt.mp below).trans highInside.2⟩

/-- What lies between two numbers is confined to itself. -/
theorem confine_real_self {low high x : ℝ} (above : low ≤ x) (below : x ≤ high) :
    Scalar.lesser (Scalar.greater x low) high = x := by
  have raised : Scalar.greater x low = x := by
    show (if x < low then low else x) = x
    rw [if_neg (not_lt.mpr above)]
  rw [raised]
  show (if high < x then high else x) = x
  rw [if_neg (not_lt.mpr below)]

/-- An anchor is moved into the domain. -/
theorem Inside.anchorX_mem (inside : Inside path) (selection : Selection ℝ) (id : SegmentId) (x : ℝ) :
    0 ≤ anchorX path selection id x ∧ anchorX path selection id x ≤ path.domain := by
  have width := inside.width
  unfold anchorX
  dsimp only
  rw [Scalar.zero_real]
  split
  · exact ⟨le_rfl, width⟩
  · split
    · exact ⟨width, le_rfl⟩
    · cases room : path.bounds? id fun other => selection.contains (Item.anchor other) with
      | none => exact confine_real_mem ⟨le_rfl, width⟩ ⟨width, le_rfl⟩
      | some bounds =>
        obtain ⟨index, -, rfl⟩ := Option.map_eq_some_iff.mp room
        rw [Option.getD_some]
        dsimp only
        rw [Scalar.zero_real]
        exact confine_real_mem (inside.bound _ le_rfl width) (inside.bound _ width le_rfl)

/-- An anchor that stays is at the same x in both paths when those that may differ are selected. -/
theorem fixed_agree (agree : AgreeBut free path other) (held : Held path) (held' : Held other)
    (selected : ∀ id, free (Item.anchor id) → selection.contains (Item.anchor id) = true)
    (index : ℕ) (still : path.isFixed (fun id => selection.contains (Item.anchor id)) index = true) :
    other.anchorX? index = path.anchorX? index := by
  unfold anchorX?
  cases found : path.segments[index]? with
  | none => rw [getElem?_eq_none_of_ids agree.ids found]
  | some segment =>
    obtain ⟨segment', found', -⟩ := getElem?_of_ids agree.ids found
    rw [found', Option.map_some, Option.map_some, Option.some.injEq]
    unfold isFixed at still
    rw [found, Option.any_some, Bool.or_eq_true, Bool.or_eq_true, beq_iff_eq, beq_iff_eq] at still
    -- the ends may be selected and free, but their x is pinned in both paths
    rcases still with (rfl | atEnd) | still
    · rw [held.first _ found, held'.first _ found']
    · rw [held.last _ _ atEnd found, held'.last _ _ ?_ found', agree.domain]
      rw [size_eq_of_ids agree.ids, atEnd]
    · rw [(agree.each index _ _ found found').point]
      rintro ⟨-, loose⟩
      dsimp only at still
      rw [selected _ loose] at still
      cases still

/-- An anchor goes to the same x in both paths when those that may differ are selected. -/
theorem anchorX_agree (agree : AgreeBut free path other) (held : Held path) (held' : Held other)
    (selected : ∀ id, free (Item.anchor id) → selection.contains (Item.anchor id) = true)
    (id : SegmentId) (x : ℝ) : anchorX other selection id x = anchorX path selection id x := by
  have room := bounds?_of_fixed agree.ids agree.domain (fixed_agree agree held held' selected) id
  unfold anchorX
  dsimp only
  rw [isFirst_of_ids agree.ids, isLast_of_ids agree.ids, agree.domain, room]

/-! ### Moving one item -/

/-- The path with one item moved, in exact arithmetic. -/
noncomputable def carry (selection : Selection ℝ) (paired : Bool) (path : Path ℝ) (item : Item)
    (target : Point ℝ) : Path ℝ :=
  path.modify item.segment (movePart path.domain (anchorX path selection item.segment target.x)
    paired item.part target)

/-- Moving an item writes a part of its segment. -/
def WritesItem (paired : Bool) (item other : Item) : Prop :=
  other.segment = item.segment ∧ Writes paired item.part other.part

theorem movePart_id {domain x : ℝ} {part : Part} (segment : Segment ℝ) :
    (movePart domain x paired part target segment).id = segment.id := movePart_frame.id

theorem moveItem_real (inside : Inside path) :
    moveItem selection paired path item target = .ok (carry selection paired path item target) := by
  unfold moveItem carry
  cases found : path.find? item.segment with
  | none => rw [modify_of_find?_eq_none found]
  | some segment =>
    have anchor := inside.anchors segment (find?_eq_some found).1
    dsimp only
    cases part : item.part with
    | anchor => rfl
    | handle side =>
      dsimp only
      rw [dragHandle_real side anchor]
      refine congrArg Except.ok (modify_congr fun other isOther => ?_)
      rw [found, Option.some.injEq] at isOther
      rw [isOther]

/-- The moved item lies where it was or where it was moved to. -/
theorem movePart_x {domain x : ℝ} {part : Part} (segment : Segment ℝ) :
    part = .anchor ∧ (movePart domain x paired part target segment).point.x = x ∨
      (movePart domain x paired part target segment).point = segment.point := by
  cases part with
  | anchor => exact .inl ⟨rfl, rfl⟩
  | handle side =>
    refine .inr (movePart_frame.point ?_)
    rintro (same | ⟨-, side', -, same⟩) <;> cases same

/-- No anchor leaves the domain when an item is moved. -/
theorem Inside.carry (inside : Inside path) (selection : Selection ℝ) (paired : Bool) (item : Item)
    (target : Point ℝ) : Inside (carry selection paired path item target) := by
  refine ⟨inside.width, fun segment member => ?_⟩
  show 0 ≤ segment.point.x ∧ segment.point.x ≤ path.domain
  rcases mem_modify member with same | ⟨before, found, rfl⟩
  · exact inside.anchors segment same
  · rcases movePart_x before with ⟨-, moved⟩ | kept
    · rw [moved]
      exact inside.anchorX_mem selection item.segment target.x
    · rw [kept]
      exact inside.anchors before (find?_eq_some found).1

/-- The ends hold when an item is moved. -/
theorem Held.carry (held : Held path) (selection : Selection ℝ) (paired : Bool) (item : Item)
    (target : Point ℝ) : Held (carry selection paired path item target) := by
  have ids : (Session.carry selection paired path item target).ids = path.ids :=
    ids_modify fun segment => movePart_id segment
  have size := size_eq_of_ids ids
  refine ⟨by rw [size]; exact held.two, ?_, ?_,
    (held.isInside.carry selection paired item target).anchors⟩
  · intro segment found
    unfold Session.carry at found
    rw [getElem?_modify, Option.map_eq_some_iff] at found
    obtain ⟨before, here, rfl⟩ := found
    split
    case isTrue place =>
      rcases movePart_x before with ⟨-, moved⟩ | kept
      · rw [moved]
        unfold anchorX
        rw [if_pos (isFirst_of_place place), Scalar.zero_real]
      · rw [kept]
        exact held.first before here
    case isFalse => exact held.first before here
  · intro index segment atEnd found
    rw [size] at atEnd
    unfold Session.carry at found
    rw [getElem?_modify, Option.map_eq_some_iff] at found
    obtain ⟨before, here, rfl⟩ := found
    show _ = path.domain
    split
    case isTrue place =>
      rcases movePart_x before with ⟨-, moved⟩ | kept
      -- an identifier of both ends would be found at the first one
      · have notFirst : ¬path.isFirst item.segment = true := by
          intro isFirst
          have start := place_of_isFirst isFirst
          rw [place, Option.some.injEq] at start
          have := held.two
          omega
        rw [moved]
        unfold anchorX
        rw [if_neg notFirst, if_pos (isLast_of_place place atEnd)]
      · rw [kept]
        exact held.last index before atEnd here
    case isFalse => exact held.last index before atEnd here

/-- Nothing but what is written has changed. -/
theorem carry_frame : AgreeBut (WritesItem paired item) path
    (carry selection paired path item target) :=
  AgreeBut.of_modify (fun segment => movePart_id segment) fun _ _ =>
    movePart_frame.mono fun _ written => ⟨rfl, written⟩

/-- **What is written is told by what is not**, when the anchor of a handle is no longer free. -/
theorem carry_agree (agree : AgreeBut free path other) (held : Held path) (held' : Held other)
    (selected : ∀ id, free (Item.anchor id) → selection.contains (Item.anchor id) = true)
    (anchored : item.part ≠ .anchor → ¬free (Item.anchor item.segment)) :
    AgreeBut (fun other => free other ∧ ¬WritesItem paired item other)
      (carry selection paired path item target) (carry selection paired other item target) := by
  unfold carry
  rw [anchorX_agree agree held held' selected, agree.domain]
  refine agree.modify (fun segment => movePart_id segment) (fun segment => movePart_id segment)
    (fun other differ loose => ⟨loose, fun written => differ written.1⟩) ?_
  intro segment segment' found found'
  refine (movePart_agree (agree.of_find? found found') anchored).mono fun part loose => ⟨loose.1, ?_⟩
  exact fun written => loose.2 written.2

end Holding

/-! ### One drag -/

section Carrying

variable {selection : Selection ℝ} {paired : Bool} {target : Point ℝ → Point ℝ}
  {moves : List (Item × Point ℝ)} {path other : Path ℝ} {free : Item → Prop}

/-- The path with a list of items moved, each to the target of its point. -/
noncomputable def carryAll (selection : Selection ℝ) (paired : Bool) (target : Point ℝ → Point ℝ)
    (moves : List (Item × Point ℝ)) (path : Path ℝ) : Path ℝ :=
  moves.foldl (fun path move => carry selection paired path move.1 (target move.2)) path

/-- One of the moves writes this item. -/
def WritesAny (paired : Bool) (moves : List (Item × Point ℝ)) (item : Item) : Prop :=
  ∃ move ∈ moves, WritesItem paired move.1 item

theorem foldlM_moveItem_real (selection : Selection ℝ) (paired : Bool)
    (target : Point ℝ → Point ℝ) (moves : List (Item × Point ℝ)) (inside : Inside path) :
    moves.foldlM (fun path move => moveItem selection paired path move.1 (target move.2)) path =
        .ok (carryAll selection paired target moves path) ∧
      Inside (carryAll selection paired target moves path) := by
  induction moves generalizing path with
  | nil => exact ⟨rfl, inside⟩
  | cons move moves ih =>
    rw [List.foldlM_cons, moveItem_real inside]
    exact ih (inside.carry selection paired move.1 (target move.2))

theorem Held.carryAll (held : Held path) (selection : Selection ℝ) (paired : Bool)
    (target : Point ℝ → Point ℝ) (moves : List (Item × Point ℝ)) :
    Held (carryAll selection paired target moves path) := by
  induction moves generalizing path with
  | nil => exact held
  | cons move moves ih => exact ih (held.carry selection paired move.1 (target move.2))

/-- Nothing but what is written has changed. -/
theorem carryAll_frame : AgreeBut (WritesAny paired moves) path
    (carryAll selection paired target moves path) := by
  induction moves generalizing path with
  | nil => exact AgreeBut.refl _ path
  | cons move moves ih =>
    refine AgreeBut.trans (carry_frame.mono fun item written => ?_) (ih.mono fun item written => ?_)
    · exact ⟨move, List.mem_cons_self, written⟩
    · obtain ⟨later, member, written⟩ := written
      exact ⟨later, List.mem_cons_of_mem _ member, written⟩

/-- An anchor is moved before its handles. -/
theorem rank_anchor_lt {item : Item} (handle : item.part ≠ .anchor) :
    (Item.anchor item.segment).rank < item.rank := by
  obtain ⟨id, _ | _ | _⟩ := item
  · exact absurd rfl handle
  · exact Nat.lt_succ_self _
  · exact Nat.lt_add_of_pos_right Nat.two_pos

/-- **A drag tells what it writes**, when the anchors that are free are among those it moves. -/
theorem carryAll_agree (ranked : moves.Pairwise fun first second => first.1.rank < second.1.rank)
    (agree : AgreeBut free path other) (held : Held path) (held' : Held other)
    (selected : ∀ id, free (Item.anchor id) → selection.contains (Item.anchor id) = true)
    (moved : ∀ id, free (Item.anchor id) → ∃ move ∈ moves, move.1 = Item.anchor id) :
    AgreeBut (fun item => free item ∧ ¬WritesAny paired moves item)
      (carryAll selection paired target moves path)
      (carryAll selection paired target moves other) := by
  induction moves generalizing path other free with
  | nil =>
    refine agree.mono fun item loose => ⟨loose, ?_⟩
    rintro ⟨move, member, -⟩
    cases member
  | cons move moves ih =>
    obtain ⟨first, ranked⟩ := List.pairwise_cons.mp ranked
    -- a free anchor is still to be moved, so it comes before its handles
    have anchored : move.1.part ≠ .anchor → ¬free (Item.anchor move.1.segment) := by
      intro handle loose
      obtain ⟨later, member, isAnchor⟩ := moved _ loose
      have before := rank_anchor_lt handle
      rw [← isAnchor] at before
      rcases List.mem_cons.mp member with rfl | member
      · exact absurd before (lt_irrefl _)
      · exact absurd before (first later member).not_gt
    have step : AgreeBut (fun item => free item ∧ ¬WritesItem paired move.1 item)
        (carry selection paired path move.1 (target move.2))
        (carry selection paired other move.1 (target move.2)) :=
      carry_agree agree held held' selected anchored
    refine (ih ranked step (held.carry selection paired move.1 (target move.2))
      (held'.carry selection paired move.1 (target move.2)) (fun id loose => selected id loose.1)
      fun id loose => ?_).mono fun item loose => ⟨loose.1.1, ?_⟩
    · obtain ⟨later, member, isAnchor⟩ := moved id loose.1
      rcases List.mem_cons.mp member with rfl | member
      · exact absurd ⟨by rw [isAnchor], .inl (by rw [isAnchor])⟩ loose.2
      · exact ⟨later, member, isAnchor⟩
    · rintro ⟨later, member, written⟩
      rcases List.mem_cons.mp member with rfl | member
      · exact loose.1.2 written
      · exact loose.2 ⟨later, member, written⟩

end Carrying

end Session

end Easing
