/-
**Paths in order.**

The anchors of a path are in ascending x, its ends lie at zero and at the end of the domain, and no
identifier occurs twice.

* `Path.Ascending`, `Path.Pinned`, `Path.Distinct`.
* `Path.modify_segments`: with distinct identifiers a change of one segment is a map.
* `Path.remove?_spec`: removing keeps the ends and the order of the rest.
* `Path.ascending_insert_iff`: exactly when an inserted anchor is in its place. It goes after the
  first of the anchors that come nearest from the left, and it belongs after the last one.
-/
import Easing.Path.Basic
import Easing.Proofs.Scalar.Order
import Mathlib.Data.List.Nodup
import Mathlib.Data.List.InsertIdx

set_option linter.unusedSectionVars false

namespace Easing

namespace Path

open Scalar OrderedScalar

variable {α : Type} [Scalar α]

/-! ### What is kept of a path -/

/-- The anchors are in ascending x. -/
def Ascending (path : Path α) : Prop :=
  path.segments.Pairwise fun left right => left.point.x ≤ right.point.x

/-- The identifiers in path order. -/
def ids (path : Path α) : List SegmentId := path.segments.map (·.id)

/-- No identifier occurs twice. -/
def Distinct (path : Path α) : Prop := path.ids.Nodup

/-- There are two ends, at zero and at the end of the domain. -/
structure Pinned (path : Path α) : Prop where
  two : 2 ≤ path.size
  first : ∀ segment, path.segments.head? = some segment → (segment.point.x == 0) = true
  last : ∀ segment, path.segments.getLast? = some segment →
    (segment.point.x == path.domain) = true

/-- All identifiers of the path were made by this supply. -/
def IssuedBy (path : Path α) (supply : IdSupply) : Prop := ∀ id ∈ path.ids, id.number < supply.next

instance (path : Path α) : Decidable path.Ascending :=
  inferInstanceAs (Decidable (path.segments.Pairwise _))

instance (path : Path α) : Decidable path.Distinct := inferInstanceAs (Decidable path.ids.Nodup)

instance (path : Path α) : Decidable path.Pinned :=
  decidable_of_iff
    (2 ≤ path.size ∧ (∀ segment ∈ path.segments.head?, (segment.point.x == 0) = true) ∧
      ∀ segment ∈ path.segments.getLast?, (segment.point.x == path.domain) = true)
    ⟨fun ⟨two, first, last⟩ => ⟨two, first, last⟩, fun ⟨two, first, last⟩ => ⟨two, first, last⟩⟩

instance (path : Path α) (supply : IdSupply) : Decidable (path.IssuedBy supply) :=
  inferInstanceAs (Decidable (∀ id ∈ path.ids, id.number < supply.next))

section Finding

variable {path : Path α} {id : SegmentId} {segment : Segment α} {index : Nat}

theorem length_ids : path.ids.length = path.size := List.length_map _

theorem id_of_getElem? (found : path.segments[index]? = some segment) :
    path.ids[index]? = some segment.id := by
  rw [ids, List.getElem?_map, found]
  rfl

theorem id_mem (member : segment ∈ path.segments) : segment.id ∈ path.ids :=
  List.mem_map_of_mem member

/-- Distinct identifiers tell segments apart. -/
theorem Distinct.eq_of_id (distinct : path.Distinct) {other : Segment α}
    (member : segment ∈ path.segments) (member' : other ∈ path.segments)
    (same : segment.id = other.id) : segment = other :=
  List.inj_on_of_nodup_map distinct member member' same

theorem Distinct.index_unique (distinct : path.Distinct) {other : Nat} {segment' : Segment α}
    (found : path.segments[index]? = some segment) (found' : path.segments[other]? = some segment')
    (same : segment.id = segment'.id) : index = other := by
  have first := id_of_getElem? found
  have second := id_of_getElem? found'
  rw [← same] at second
  obtain ⟨bound, -⟩ := List.getElem?_eq_some_iff.mp first
  exact (List.getElem?_inj bound distinct).mp (first.trans second.symm)

theorem find?_eq_some (found : path.find? id = some segment) :
    segment ∈ path.segments ∧ segment.id = id := by
  refine ⟨List.mem_of_find?_eq_some found, ?_⟩
  simpa using List.find?_some found

theorem Distinct.find? (distinct : path.Distinct) (member : segment ∈ path.segments) :
    path.find? segment.id = some segment := by
  cases found : path.find? segment.id with
  | none =>
    have := List.find?_eq_none.mp found segment member
    simp at this
  | some other =>
    obtain ⟨member', same⟩ := find?_eq_some found
    rw [distinct.eq_of_id member' member same]

theorem index?_eq_some (found : path.index? id = some index) :
    ∃ segment, path.segments[index]? = some segment ∧ segment.id = id := by
  obtain ⟨bound, same, -⟩ := List.findIdx?_eq_some_iff_getElem.mp found
  exact ⟨_, List.getElem?_eq_getElem bound, by simpa using same⟩

theorem Distinct.index? (distinct : path.Distinct)
    (found : path.segments[index]? = some segment) : path.index? segment.id = some index := by
  cases at? : path.index? segment.id with
  | none =>
    have := List.findIdx?_eq_none_iff.mp at? segment (List.mem_of_getElem? found)
    simp at this
  | some other =>
    obtain ⟨segment', found', same⟩ := index?_eq_some at?
    rw [distinct.index_unique found found' same.symm]

theorem isFirst_iff (found : path.segments[index]? = some segment) (distinct : path.Distinct) :
    path.isFirst segment.id = true ↔ index = 0 := by
  unfold isFirst
  cases head : path.segments with
  | nil => rw [head] at found; simp at found
  | cons first rest =>
    have start : path.segments[0]? = some first := by rw [head]; rfl
    simp only [List.head?_cons, Option.any_some, decide_eq_true_eq]
    constructor
    · intro same
      exact (distinct.index_unique start found same).symm
    · rintro rfl
      rw [start, Option.some.injEq] at found
      rw [found]

theorem isLast_iff (found : path.segments[index]? = some segment) (distinct : path.Distinct) :
    path.isLast segment.id = true ↔ index + 1 = path.size := by
  obtain ⟨bound, isSegment⟩ := List.getElem?_eq_some_iff.mp found
  have last : path.segments[path.segments.length - 1]? = path.segments.getLast? :=
    List.getLast?_eq_getElem?.symm
  unfold isLast size
  cases end? : path.segments.getLast? with
  | none =>
    rw [List.getLast?_eq_none_iff] at end?
    rw [end?] at found
    simp at found
  | some final =>
    rw [end?] at last
    simp only [Option.any_some, decide_eq_true_eq]
    constructor
    · intro same
      have := distinct.index_unique last found same
      omega
    · intro atEnd
      rw [show path.segments.length - 1 = index by omega, found, Option.some.injEq] at last
      rw [last]

end Finding

/-! ### Changing one segment -/

section Changing

variable {path : Path α} {id : SegmentId}

/-- With distinct identifiers a change of one segment is a map. -/
theorem Distinct.modify (distinct : path.Distinct) (change : Segment α → Segment α) :
    (path.modify id change).segments =
      path.segments.map fun segment => if segment.id = id then change segment else segment := by
  have ofList : ∀ segments : List (Segment α), (segments.map (·.id)).Nodup →
      modifyFirst id change segments =
        segments.map fun segment => if segment.id = id then change segment else segment := by
    intro segments nodup
    induction segments with
    | nil => rfl
    | cons segment rest ih =>
      rw [List.map_cons, List.nodup_cons] at nodup
      unfold modifyFirst
      split
      case isTrue same =>
        have others : rest.map (fun other => if other.id = id then change other else other) =
            rest := by
          refine (List.map_congr_left fun other member => ?_).trans (List.map_id rest)
          rw [if_neg]
          · rfl
          · intro twice
            exact nodup.1 (same ▸ twice ▸ List.mem_map_of_mem member)
        rw [List.map_cons, if_pos same, others]
      case isFalse other => rw [List.map_cons, if_neg other, ih nodup.2]
  exact ofList path.segments distinct

end Changing

/-! ### Removing a segment -/

/-- Some interior segments are gone, and nothing else has changed. -/
structure Thinned (path thinner : Path α) : Prop where
  sublist : thinner.segments.Sublist path.segments
  domain : thinner.domain = path.domain
  first : thinner.segments.head? = path.segments.head?
  last : thinner.segments.getLast? = path.segments.getLast?
  two : 2 ≤ path.size → 2 ≤ thinner.size

namespace Thinned

variable {path thinner : Path α}

theorem ascending (thinned : Thinned path thinner) (ascending : path.Ascending) :
    thinner.Ascending := ascending.sublist thinned.sublist

theorem distinct (thinned : Thinned path thinner) (distinct : path.Distinct) : thinner.Distinct :=
  distinct.sublist (thinned.sublist.map _)

theorem issuedBy (thinned : Thinned path thinner) {supply : IdSupply}
    (issued : path.IssuedBy supply) : thinner.IssuedBy supply :=
  fun id member => issued id ((thinned.sublist.map _).mem member)

theorem pinned (thinned : Thinned path thinner) (pinned : path.Pinned) : thinner.Pinned where
  two := thinned.two pinned.two
  first := by rw [thinned.first]; exact pinned.first
  last := by rw [thinned.last, thinned.domain]; exact pinned.last

end Thinned

/-- Removing takes out an interior segment. -/
theorem remove?_spec {path thinner : Path α} {id : SegmentId}
    (removed : path.remove? id = some thinner) (distinct : path.Distinct) :
    Thinned path thinner := by
  unfold remove? at removed
  split at removed
  · exact absurd removed (by simp)
  case isFalse interior =>
    obtain ⟨index, at?, rfl⟩ := Option.map_eq_some_iff.mp removed
    obtain ⟨segment, found, rfl⟩ := index?_eq_some at?
    obtain ⟨bound, -⟩ := List.getElem?_eq_some_iff.mp found
    rw [isEndpoint, Bool.or_eq_true, isFirst_iff found distinct, isLast_iff found distinct,
      not_or] at interior
    obtain ⟨notFirst, notLast⟩ := interior
    have inner : index + 1 < path.segments.length := by
      have : path.size = path.segments.length := rfl
      omega
    have length := List.length_eraseIdx_of_lt bound
    refine ⟨List.eraseIdx_sublist _ _, rfl, ?_, ?_, fun two => ?_⟩
    · rw [List.head?_eq_getElem?, List.head?_eq_getElem?, List.getElem?_eraseIdx_of_lt (by omega)]
    · rw [List.getLast?_eq_getElem?, List.getLast?_eq_getElem?, length,
        List.getElem?_eraseIdx_of_ge (by omega)]
      congr 1
      omega
    · show 2 ≤ (path.segments.eraseIdx index).length
      omega

/-! ### A segment at an index -/

section Placing

variable {path : Path α}

/-- The path with a segment at an index. -/
def insertAt (path : Path α) (index : Nat) (segment : Segment α) : Path α :=
  { path with segments := path.segments.insertIdx index segment }

/-- Inserting puts a segment under a new identifier at the place that was found. -/
theorem insert_eq {first : Segment α} {rest : List (Segment α)} (form : path.segments = first :: rest)
    (supply : IdSupply) (point : Point α) :
    path.insert supply point = .ok (⟨supply.next⟩,
      path.insertAt (insertionIndex first path.segments point.x)
        { Knot.corner point with id := ⟨supply.next⟩ },
      ⟨supply.next + 1⟩) := by
  unfold insert
  simp only [form, IdSupply.fresh, insertAt]

/-- A segment between the ends, under a new identifier, leaves the ends as they are. -/
theorem insertAt_spec {supply : IdSupply} {new : Segment α} {index : Nat}
    (fresh : new.id = ⟨supply.next⟩) (issued : path.IssuedBy supply) (distinct : path.Distinct)
    (after : 0 < index) (inner : index < path.size) :
    (path.insertAt index new).segments.head? = path.segments.head? ∧
      (path.insertAt index new).segments.getLast? = path.segments.getLast? ∧
      (path.insertAt index new).Distinct ∧
      (path.insertAt index new).IssuedBy ⟨supply.next + 1⟩ := by
  have within : index ≤ path.segments.length := Nat.le_of_lt inner
  refine ⟨?_, ?_, ?_, ?_⟩
  · show (path.segments.insertIdx _ new).head? = _
    rw [List.head?_eq_getElem?, List.getElem?_insertIdx_of_lt after, ← List.head?_eq_getElem?]
  · show (path.segments.insertIdx _ new).getLast? = _
    have length := List.length_insertIdx_of_le_length within new
    have shifted : path.segments.length + 1 - 1 - 1 = path.segments.length - 1 := rfl
    rw [List.getLast?_eq_getElem?, length, List.getElem?_insertIdx_of_gt (by
      have : path.size = path.segments.length := rfl
      omega), shifted, ← List.getLast?_eq_getElem?]
  · show ((path.segments.insertIdx _ new).map (·.id)).Nodup
    rw [List.map_insertIdx]
    refine (List.perm_insertIdx _ _ ?_).nodup_iff.mpr (List.nodup_cons.mpr ⟨?_, distinct⟩)
    · rwa [List.length_map]
    · intro member
      rw [fresh] at member
      exact absurd (issued _ member) (Nat.lt_irrefl _)
  · intro id member
    change id ∈ (path.segments.insertIdx _ new).map (·.id) at member
    obtain ⟨segment, inside, rfl⟩ := List.mem_map.mp member
    rcases List.eq_or_mem_of_mem_insertIdx inside with rfl | old
    · rw [fresh]
      exact Nat.lt_succ_self _
    · exact Nat.lt_succ_of_lt (issued _ (id_mem old))

/-- The ends of a path stay pinned when nothing is changed about them. -/
theorem Pinned.of_ends {other : Path α} (pinned : path.Pinned) (two : 2 ≤ other.size)
    (domain : other.domain = path.domain)
    (first : other.segments.head? = path.segments.head?)
    (last : other.segments.getLast? = path.segments.getLast?) : other.Pinned where
  two := two
  first := by rw [first]; exact pinned.first
  last := by rw [last, domain]; exact pinned.last

end Placing

/-! ### Inserting a segment -/

section Inserting

variable [OrderedScalar α] {x : α} {path : Path α}

/-- The segments whose anchors lie to the left of `x`. -/
def leftOf (path : Path α) (x : α) : List (Segment α) :=
  path.segments.filter fun segment => segment.point.x < x

/-- Of the anchors to the left of `x`, the last one is nearer than every other. -/
def NearestIsLast (path : Path α) (x : α) : Prop :=
  ∀ last, (path.leftOf x).getLast? = some last →
    ∀ other ∈ (path.leftOf x).dropLast, x - last.point.x < x - other.point.x

instance (path : Path α) (x : α) : Decidable (path.NearestIsLast x) :=
  inferInstanceAs (Decidable (∀ last ∈ (path.leftOf x).getLast?,
    ∀ other ∈ (path.leftOf x).dropLast, x - last.point.x < x - other.point.x))

/-- The distance of the nearest anchor that a search to the left has found. -/
def leastDistance (x : α) (segments : List (Segment α)) (distance : α) : α :=
  segments.foldl
    (fun least segment =>
      let d := x - segment.point.x
      if 0 < d && d < least then d else least)
    distance

theorem nearestLeft_append (front back : List (Segment α)) (index best : Nat) (distance : α) :
    nearestLeft x (front ++ back) index best distance =
      nearestLeft x back (index + front.length) (nearestLeft x front index best distance)
        (leastDistance x front distance) := by
  induction front generalizing index best distance with
  | nil => rfl
  | cons segment front ih =>
    simp only [List.cons_append, nearestLeft, leastDistance, List.foldl_cons, List.length_cons]
    split
    · rw [ih, Nat.add_right_comm, Nat.add_assoc]
      rfl
    · rw [ih, Nat.add_right_comm, Nat.add_assoc]
      rfl

/-- Anchors that are not to the left are passed over. -/
theorem nearestLeft_right {segments : List (Segment α)}
    (right : ∀ segment ∈ segments, ¬segment.point.x < x) (index best : Nat) (distance : α) :
    nearestLeft x segments index best distance = best := by
  induction segments generalizing index with
  | nil => rfl
  | cons segment rest ih =>
    have notLeft : ¬(0 : α) < x - segment.point.x := by
      rw [sub_pos_iff]
      exact right segment List.mem_cons_self
    simp only [nearestLeft, notLeft, decide_false, Bool.false_and, Bool.false_eq_true, if_false]
    exact ih (fun other member => right other (List.mem_cons_of_mem _ member)) _

/-- The search stays within the anchors. -/
theorem nearestLeft_lt (segments : List (Segment α)) (index best : Nat) (distance : α)
    (within : best < index + segments.length) :
    nearestLeft x segments index best distance < index + segments.length := by
  induction segments generalizing index best distance with
  | nil => exact within
  | cons segment rest ih =>
    simp only [nearestLeft, List.length_cons] at within ⊢
    rw [Nat.add_comm rest.length, ← Nat.add_assoc] at within ⊢
    split
    · exact ih _ _ _ (by omega)
    · exact ih _ _ _ within

/-- What is nearer than everything found so far. -/
theorem lt_leastDistance_iff {segments : List (Segment α)} {c distance : α} :
    c < leastDistance x segments distance ↔
      c < distance ∧ ∀ segment ∈ segments, segment.point.x < x → c < x - segment.point.x := by
  induction segments generalizing distance with
  | nil => simp [leastDistance]
  | cons segment rest ih =>
    have step : leastDistance x (segment :: rest) distance =
        leastDistance x rest
          (if 0 < x - segment.point.x && x - segment.point.x < distance then
            x - segment.point.x
          else distance) := rfl
    have head : c < (if 0 < x - segment.point.x && x - segment.point.x < distance then
        x - segment.point.x else distance) ↔
          c < distance ∧ (segment.point.x < x → c < x - segment.point.x) := by
      split
      case isTrue nearer =>
        simp only [Bool.and_eq_true, decide_eq_true_eq, sub_pos_iff] at nearer
        exact ⟨fun less => ⟨lt_of_lt_of_le less (le_of_lt nearer.2), fun _ => less⟩,
          fun both => both.2 nearer.1⟩
      case isFalse notNearer =>
        simp only [Bool.and_eq_true, decide_eq_true_eq, not_and, sub_pos_iff] at notNearer
        refine ⟨fun less => ⟨less, fun left => ?_⟩, And.left⟩
        have number := isNumber_right (le_of_lt (sub_pos_iff.mpr left))
        exact lt_of_lt_of_le less
          (le_of_not_lt number (isNumber_right (le_of_lt less)) (notNearer left))
    rw [step, ih, head, List.forall_mem_cons, and_assoc]

/-- A path in order with two ends has no NaN among its anchors. -/
theorem Ascending.isNumber (ascending : path.Ascending) (two : 2 ≤ path.size) :
    ∀ segment ∈ path.segments, IsNumber segment.point.x := by
  unfold Ascending size at *
  generalize path.segments = segments at *
  rcases segments with _ | ⟨first, _ | ⟨second, rest⟩⟩
  · simp at two
  · simp at two
  · have head := (List.pairwise_cons.mp ascending).1
    intro segment member
    rcases List.mem_cons.mp member with rfl | member
    · exact isNumber_left (head second List.mem_cons_self)
    · exact isNumber_right (head segment member)

/-- In a path in order the anchors to the left come first. -/
theorem Ascending.split (ascending : path.Ascending) (two : 2 ≤ path.size) (number : IsNumber x) :
    ∃ rights, path.segments = path.leftOf x ++ rights ∧ ∀ right ∈ rights, x ≤ right.point.x := by
  have numbers := ascending.isNumber two
  unfold Ascending at ascending
  unfold leftOf
  clear two
  generalize path.segments = segments at *
  induction segments with
  | nil => exact ⟨[], rfl, fun _ member => absurd member List.not_mem_nil⟩
  | cons segment rest ih =>
    obtain ⟨above, sorted⟩ := List.pairwise_cons.mp ascending
    by_cases left : segment.point.x < x
    · obtain ⟨rights, form, right⟩ := ih sorted fun other member =>
        numbers other (List.mem_cons_of_mem _ member)
      refine ⟨rights, ?_, right⟩
      rw [List.filter_cons_of_pos (by simpa using left), List.cons_append, ← form]
    · have beyond : x ≤ segment.point.x :=
        le_of_not_lt (numbers segment List.mem_cons_self) number left
      have none : (segment :: rest).filter (fun other => other.point.x < x) = [] := by
        rw [List.filter_eq_nil_iff]
        intro other member
        rw [decide_eq_true_eq]
        rcases List.mem_cons.mp member with rfl | member
        · exact left
        · exact fun less => not_le_of_lt less (le_trans beyond (above other member))
      refine ⟨segment :: rest, by rw [none]; rfl, fun other member => ?_⟩
      rcases List.mem_cons.mp member with rfl | member
      · exact beyond
      · exact le_trans beyond (above other member)

theorem left_of_mem_leftOf {segment : Segment α} (member : segment ∈ path.leftOf x) :
    segment.point.x < x := by
  simpa using (List.mem_filter.mp member).2

/-- Nothing lies to the left of what is not to the right of the first anchor. -/
theorem Ascending.none_left {first : Segment α} {rest : List (Segment α)}
    (ascending : path.Ascending) (form : path.segments = first :: rest)
    (notLeft : x ≤ first.point.x) : ∀ segment ∈ path.segments, ¬segment.point.x < x := by
  rw [Ascending, form] at ascending
  rw [form]
  intro segment member less
  refine not_le_of_lt less (le_trans notLeft ?_)
  rcases List.mem_cons.mp member with rfl | member
  · exact le_self (isNumber_right notLeft)
  · exact (List.pairwise_cons.mp ascending).1 segment member

/-- When some anchor lies to the left, the new place is after all of them exactly when the last one
is the nearest. -/
theorem insertionIndex_eq_iff {first : Segment α} {rest : List (Segment α)}
    (form : path.segments = first :: rest) (ascending : path.Ascending) (two : 2 ≤ path.size)
    (left : first.point.x < x) :
    insertionIndex first path.segments x ≤ (path.leftOf x).length ∧
      (insertionIndex first path.segments x = (path.leftOf x).length ↔ path.NearestIsLast x) := by
  obtain ⟨rights, segments, right⟩ := ascending.split two (isNumber_right (le_of_lt left))
  have passed : ∀ other ∈ rights, ¬other.point.x < x :=
    fun other member less => not_le_of_lt less (right other member)
  have index : insertionIndex first path.segments x =
      nearestLeft x (path.leftOf x) 0 0 (x - first.point.x) + 1 := by
    unfold insertionIndex
    conv_lhs => rw [segments, nearestLeft_append, nearestLeft_right passed]
  have head : (path.leftOf x).head? = some first := by
    unfold leftOf
    rw [form, List.filter_cons_of_pos (by simpa using left)]
    rfl
  have lefts : ∀ other ∈ path.leftOf x, other.point.x < x := fun other => left_of_mem_leftOf
  rw [index]
  unfold NearestIsLast
  generalize path.leftOf x = found at head lefts
  rcases List.eq_nil_or_concat found with rfl | ⟨front, last, rfl⟩
  · simp at head
  rw [List.concat_eq_append] at *
  have within := nearestLeft_lt (x := x) (front ++ [last]) 0 0 (x - first.point.x) (by simp)
  rw [List.length_append, List.length_singleton] at within ⊢
  refine ⟨by omega, ?_⟩
  simp only [List.getLast?_concat, List.dropLast_concat, Option.some.injEq, forall_eq']
  rw [nearestLeft_append]
  simp only [nearestLeft, Nat.zero_add, Nat.add_right_cancel_iff]
  rcases front with _ | ⟨start, front⟩
  · simp [nearestLeft]
  obtain rfl : start = first := by simpa using head
  have lastLeft : 0 < x - last.point.x := sub_pos_iff.mpr (lefts last (by simp))
  have nearer : x - last.point.x < leastDistance x (start :: front) (x - start.point.x) ↔
      ∀ other ∈ start :: front, x - last.point.x < x - other.point.x := by
    rw [lt_leastDistance_iff]
    refine ⟨fun both other member => both.2 other member (lefts other ?_), fun all => ?_⟩
    · exact List.mem_append_left _ member
    · exact ⟨all start List.mem_cons_self, fun other member _ => all other member⟩
  rw [← nearer]
  by_cases less : x - last.point.x < leastDistance x (start :: front) (x - start.point.x)
  · simp [less, lastLeft]
  · have short := nearestLeft_lt (x := x) (start :: front) 0 0 (x - start.point.x) (by simp)
    simp only [less, lastLeft, decide_false, Bool.and_false, Bool.false_eq_true, if_false, iff_false]
    omega

theorem insertIdx_length_append {β : Type} (front back : List β) (b : β) :
    (front ++ back).insertIdx front.length b = front ++ b :: back := by
  induction front with
  | nil => rfl
  | cons c front ih =>
    rw [List.cons_append, List.length_cons, List.insertIdx_succ_cons, ih]
    rfl

/-- After all anchors to its left a new one is in its place. -/
theorem ascending_insertAt (ascending : path.Ascending) (two : 2 ≤ path.size) {new : Segment α}
    (number : IsNumber new.point.x) :
    (path.insertAt (path.leftOf new.point.x).length new).Ascending := by
  obtain ⟨rights, form, right⟩ := ascending.split two number
  have before : ∀ segment ∈ path.leftOf new.point.x, segment.point.x < new.point.x :=
    fun segment => left_of_mem_leftOf
  unfold Ascending insertAt at *
  rw [form] at ascending ⊢
  generalize path.leftOf new.point.x = lefts at *
  rw [insertIdx_length_append]
  obtain ⟨sorted, sorted', across⟩ := List.pairwise_append.mp ascending
  refine List.pairwise_append.mpr ⟨sorted, List.pairwise_cons.mpr ⟨right, sorted'⟩, ?_⟩
  intro segment member other member'
  rcases List.mem_cons.mp member' with rfl | member'
  · exact le_of_lt (before segment member)
  · exact across segment member other member'

/-- Before the last anchor to its left a new one is out of place. -/
theorem not_ascending_insertAt (ascending : path.Ascending) (two : 2 ≤ path.size)
    {new : Segment α} (number : IsNumber new.point.x) {index : Nat}
    (early : index < (path.leftOf new.point.x).length) :
    ¬(path.insertAt index new).Ascending := by
  obtain ⟨rights, form, -⟩ := ascending.split two number
  show ¬(path.segments.insertIdx index new).Pairwise _
  rw [List.pairwise_iff_getElem]
  intro sorted
  have long : (path.leftOf new.point.x).length ≤ path.segments.length := by
    rw [form, List.length_append]
    omega
  have length := List.length_insertIdx_of_le_length (show index ≤ path.segments.length by omega) new
  have less := sorted index (path.leftOf new.point.x).length (by omega) (by omega) early
  have last : (path.leftOf new.point.x)[(path.leftOf new.point.x).length - 1] ∈
      path.leftOf new.point.x := List.getElem_mem _
  have inside : (path.leftOf new.point.x).length - 1 < path.segments.length := by omega
  have place : path.segments[(path.leftOf new.point.x).length - 1] =
      (path.leftOf new.point.x)[(path.leftOf new.point.x).length - 1] := by
    simp only [form]
    rw [List.getElem_append_left (by omega)]
  rw [List.getElem_insertIdx_self (by omega), List.getElem_insertIdx_of_gt early, place] at less
  exact not_le_of_lt (left_of_mem_leftOf last) less

/-- **When an inserted anchor is in its place.** -/
theorem ascending_insert_iff {first new : Segment α} {rest : List (Segment α)}
    (form : path.segments = first :: rest) (ascending : path.Ascending) (two : 2 ≤ path.size)
    (within : first.point.x ≤ new.point.x) :
    (path.insertAt (insertionIndex first path.segments new.point.x) new).Ascending ↔
      path.NearestIsLast new.point.x := by
  have number := isNumber_right within
  rcases lt_or_le (isNumber_left within) number with left | notLeft
  · obtain ⟨bound, exact⟩ := insertionIndex_eq_iff form ascending two left
    rw [← exact]
    rcases Nat.lt_or_eq_of_le bound with early | same
    · exact ⟨fun sorted => absurd sorted (not_ascending_insertAt ascending two number early),
        fun same => absurd same (Nat.ne_of_lt early)⟩
    · rw [same]
      exact ⟨fun _ => rfl, fun _ => ascending_insertAt ascending two number⟩
  · have right := ascending.none_left form notLeft
    have none : path.leftOf new.point.x = [] :=
      List.filter_eq_nil_iff.mpr fun segment member => by simpa using right segment member
    have vacuous : path.NearestIsLast new.point.x := by
      unfold NearestIsLast
      rw [none]
      exact fun last found => absurd found (by simp)
    have index : insertionIndex first path.segments new.point.x = 1 := by
      unfold insertionIndex
      rw [nearestLeft_right right]
    refine iff_of_true ?_ vacuous
    rw [Ascending, form] at ascending
    obtain ⟨above, sorted⟩ := List.pairwise_cons.mp ascending
    unfold Ascending insertAt
    rw [index, form, List.insertIdx_succ_cons, List.insertIdx_zero]
    refine List.pairwise_cons.mpr ⟨fun other member => ?_, List.pairwise_cons.mpr ⟨?_, sorted⟩⟩
    · rcases List.mem_cons.mp member with rfl | member
      · exact within
      · exact above other member
    · exact fun other member => le_trans notLeft (above other member)

/-- An inserted anchor comes after the first and before the last one. -/
theorem insertionIndex_lt {first : Segment α} {rest : List (Segment α)}
    (form : path.segments = first :: rest) (ascending : path.Ascending) (two : 2 ≤ path.size)
    (within : first.point.x ≤ x)
    (before : ∀ last, path.segments.getLast? = some last → x ≤ last.point.x) :
    insertionIndex first path.segments x < path.size := by
  have number := isNumber_right within
  obtain ⟨rights, segments, -⟩ := ascending.split two number
  have short : (path.leftOf x).length < path.size := by
    unfold size
    rw [segments, List.length_append]
    rcases List.eq_nil_or_concat rights with rfl | ⟨front, last, rfl⟩
    · -- otherwise the last anchor would lie to the left
      rw [List.append_nil] at segments
      have some : path.segments ≠ [] := by rw [form]; simp
      have last := before _ (List.getLast?_eq_some_getLast some)
      have member : path.segments.getLast some ∈ path.leftOf x := by
        rw [← segments]
        exact List.getLast_mem some
      exact absurd last (not_le_of_lt (left_of_mem_leftOf member))
    · simp
  rcases lt_or_le (isNumber_left within) number with left | notLeft
  · exact Nat.lt_of_le_of_lt (insertionIndex_eq_iff form ascending two left).1 short
  · have right := ascending.none_left form notLeft
    unfold insertionIndex
    rw [nearestLeft_right right]
    omega

/-- However the anchors are ordered, a new one comes before the last when this is not to its left. -/
theorem insertionIndex_lt_of_last {first last : Segment α} {front : List (Segment α)}
    (some : front ≠ []) (right : ¬last.point.x < x) :
    insertionIndex first (front ++ [last]) x < (front ++ [last]).length := by
  have within := nearestLeft_lt (x := x) front 0 0 (x - first.point.x) (by
    rw [Nat.zero_add]
    exact List.length_pos_iff.mpr some)
  unfold insertionIndex
  rw [nearestLeft_append, nearestLeft_right (by simpa using right), List.length_append,
    List.length_singleton]
  omega

/-- The first anchor of a path with pinned ends. -/
theorem Pinned.exists_first (pinned : path.Pinned) :
    ∃ first rest, path.segments = first :: rest ∧ Alike first.point.x 0 := by
  have two : 2 ≤ path.segments.length := pinned.two
  cases form : path.segments with
  | nil => rw [form] at two; simp at two
  | cons first rest =>
    exact ⟨first, rest, rfl, beq_iff.mp (pinned.first first (by rw [form]; rfl))⟩

/-- Inserting between the ends gives a new identifier, keeps the ends, and keeps the order exactly
when the last anchor to the left is the nearest. -/
theorem insert_spec {supply : IdSupply} (point : Point α) (pinned : path.Pinned)
    (distinct : path.Distinct) (issued : path.IssuedBy supply) (ascending : path.Ascending)
    (low : 0 ≤ point.x) (high : point.x ≤ path.domain) :
    ∃ id inserted supply', path.insert supply point = .ok (id, inserted, supply') ∧
      inserted.domain = path.domain ∧ inserted.Pinned ∧ inserted.Distinct ∧
      inserted.IssuedBy supply' ∧ (inserted.Ascending ↔ path.NearestIsLast point.x) := by
  obtain ⟨first, rest, form, start⟩ := pinned.exists_first
  have within : first.point.x ≤ point.x := le_trans start.1 low
  have before : ∀ last, path.segments.getLast? = some last → point.x ≤ last.point.x :=
    fun last found => le_trans high (beq_iff.mp (pinned.last last found)).2
  have inner := insertionIndex_lt form ascending pinned.two within before
  have after : 0 < insertionIndex first path.segments point.x := Nat.succ_pos _
  let new : Segment α := { Knot.corner point with id := ⟨supply.next⟩ }
  have fresh : new.id = ⟨supply.next⟩ := rfl
  have iff : (path.insertAt (insertionIndex first path.segments point.x) new).Ascending ↔
      path.NearestIsLast point.x := ascending_insert_iff form ascending pinned.two within
  obtain ⟨sameFirst, sameLast, distinct', issued'⟩ :=
    insertAt_spec fresh issued distinct after inner
  refine ⟨_, _, _, insert_eq form supply point, rfl, ?_, distinct', issued', iff⟩
  exact pinned.of_ends (Nat.le_trans pinned.two List.length_le_length_insertIdx) rfl sameFirst
    sameLast

end Inserting

end Path

end Easing
