/-
**Changing one segment, found by its identifier.**

A change reaches the first segment with an identifier, wherever else the identifier occurs. Nothing
here asks identifiers to be distinct.

* `Path.getElem?_modify`, `Path.find?_modify`: what is where after a change.
* `Path.index?_of_ids`, `Path.isFirst_of_ids`, `Path.isLast_of_ids`: places are told by identifiers.
* `Path.place_of_isFirst`, `Path.isLast_of_place`: the places of the two ends.
* `Path.bounds?_of_fixed`: the room of an anchor is told by the anchors that do not move.
-/
import Easing.Proofs.Path.Room

set_option linter.unusedSectionVars false

namespace Easing

namespace Path

variable {α : Type} [Scalar α] {path other : Path α} {id : SegmentId} {index : Nat}
  {segment : Segment α} {change : Segment α → Segment α}

/-! ### Places -/

theorem index?_eq (path : Path α) (id : SegmentId) :
    path.index? id = path.ids.findIdx? fun other => other = id := by
  unfold index? ids
  rw [List.findIdx?_map]
  rfl

theorem index?_of_ids (same : other.ids = path.ids) (id : SegmentId) :
    other.index? id = path.index? id := by
  rw [index?_eq, index?_eq, same]

theorem isFirst_of_ids (same : other.ids = path.ids) (id : SegmentId) :
    other.isFirst id = path.isFirst id := by
  have told : ∀ path : Path α, path.isFirst id = path.ids.head?.any fun other => other = id := by
    intro path
    unfold isFirst ids
    rw [List.head?_map]
    cases path.segments.head? <;> rfl
  rw [told, told, same]

theorem isLast_of_ids (same : other.ids = path.ids) (id : SegmentId) :
    other.isLast id = path.isLast id := by
  have told : ∀ path : Path α, path.isLast id = path.ids.getLast?.any fun other => other = id := by
    intro path
    unfold isLast ids
    rw [List.getLast?_map]
    cases path.segments.getLast? <;> rfl
  rw [told, told, same]

/-- An identifier at the first place is that of the first segment. -/
theorem isFirst_of_place (place : path.index? id = some 0) :
    path.isFirst id = true := by
  obtain ⟨segment, found, isId⟩ := index?_eq_some place
  unfold isFirst
  rw [List.head?_eq_getElem?, found, Option.any_some, isId]
  exact decide_eq_true rfl

/-- The first segment is at the first place of its identifier. -/
theorem place_of_isFirst (starts : path.isFirst id = true) : path.index? id = some 0 := by
  unfold isFirst at starts
  unfold index?
  cases segments : path.segments with
  | nil =>
    rw [segments] at starts
    cases starts
  | cons head rest =>
    rw [segments, List.head?_cons, Option.any_some] at starts
    rw [List.findIdx?_cons, if_pos starts]

/-- An identifier at the last place is that of the last segment. -/
theorem isLast_of_place (place : path.index? id = some index)
    (atEnd : index + 1 = path.size) : path.isLast id = true := by
  obtain ⟨segment, found, isId⟩ := index?_eq_some place
  have last : path.segments.length - 1 = index := by
    unfold size at atEnd
    omega
  unfold isLast
  rw [List.getLast?_eq_getElem?, last, found, Option.any_some, isId]
  exact decide_eq_true rfl

/-- A segment is found at the first place of its identifier. -/
theorem find?_eq_bind (path : Path α) (id : SegmentId) :
    path.find? id = (path.index? id).bind fun index => path.segments[index]? := by
  unfold find? index?
  induction path.segments with
  | nil => rfl
  | cons head rest ih =>
    rw [List.findIdx?_cons]
    by_cases here : head.id = id
    · rw [List.find?_cons_of_pos (by simpa using here), if_pos (by simpa using here)]
      rfl
    · rw [List.find?_cons_of_neg (by simpa using here), if_neg (by simpa using here), ih,
        Option.bind_map]
      rfl

/-- Identifiers and knots are all there is to segments. -/
theorem segments_eq_of_knots (knots : other.knots = path.knots) (ids : other.ids = path.ids) :
    other.segments = path.segments := by
  unfold Path.knots at knots
  unfold Path.ids at ids
  generalize path.segments = first at knots ids
  generalize other.segments = second at knots ids
  induction first generalizing second with
  | nil => rwa [List.map_nil, List.map_eq_nil_iff] at ids
  | cons segment rest ih =>
    cases second with
    | nil => cases ids
    | cons segment' rest' =>
      rw [List.map_cons, List.map_cons, List.cons.injEq] at knots ids
      obtain ⟨knot, knots⟩ := knots
      obtain ⟨id, ids⟩ := ids
      obtain ⟨_, _⟩ := segment
      obtain ⟨_, _⟩ := segment'
      simp only at knot id
      rw [knot, id, ih rest' knots ids]

/-! ### Changes -/

/-- The change is made at the first place of the identifier. -/
theorem getElem?_modify (path : Path α) (id : SegmentId) (change : Segment α → Segment α)
    (index : Nat) :
    (path.modify id change).segments[index]? = (path.segments[index]?).map fun segment =>
      if path.index? id = some index then change segment else segment := by
  unfold index?
  show (modifyFirst id change path.segments)[index]? = _
  induction path.segments generalizing index with
  | nil => rfl
  | cons head rest ih =>
    unfold modifyFirst
    rw [List.findIdx?_cons]
    by_cases here : head.id = id
    · rw [if_pos here, if_pos (by simpa using here)]
      cases index with
      | zero => rfl
      | succ index => simp
    · rw [if_neg here, if_neg (by simpa using here)]
      cases index with
      | zero => simp
      | succ index =>
        rw [List.getElem?_cons_succ, List.getElem?_cons_succ, ih]
        simp

/-- What a changed path holds. -/
theorem mem_modify (member : segment ∈ (path.modify id change).segments) :
    segment ∈ path.segments ∨ ∃ before, path.find? id = some before ∧ segment = change before := by
  obtain ⟨index, found⟩ := List.mem_iff_getElem?.mp member
  rw [getElem?_modify, Option.map_eq_some_iff] at found
  obtain ⟨before, here, same⟩ := found
  split at same
  case isTrue changed =>
    refine .inr ⟨before, ?_, same.symm⟩
    rw [find?_eq_bind, changed, Option.bind_some, here]
  case isFalse => exact .inl (same ▸ List.mem_of_getElem? here)

/-- Identifiers stay when a change keeps them. -/
theorem ids_modify (sameId : ∀ segment, (change segment).id = segment.id) :
    (path.modify id change).ids = path.ids := by
  refine List.ext_getElem? fun index => ?_
  unfold ids
  rw [List.getElem?_map, List.getElem?_map, getElem?_modify, Option.map_map]
  congr 1
  funext segment
  rw [Function.comp_apply]
  split
  · exact sameId segment
  · rfl

/-- Only what a change does to the segment with the identifier matters. -/
theorem modify_congr {change' : Segment α → Segment α}
    (same : ∀ segment, path.find? id = some segment → change segment = change' segment) :
    path.modify id change = path.modify id change' := by
  refine congrArg (Path.mk · path.domain) (List.ext_getElem? fun index => ?_)
  show (path.modify id change).segments[index]? = (path.modify id change').segments[index]?
  rw [getElem?_modify, getElem?_modify]
  cases here : path.segments[index]? with
  | none => rfl
  | some segment =>
    rw [Option.map_some, Option.map_some]
    split
    case isTrue changed =>
      rw [same segment]
      rw [find?_eq_bind, changed, Option.bind_some, here]
    case isFalse => rfl

theorem modify_self (path : Path α) (id : SegmentId) :
    path.modify id (fun segment => segment) = path := by
  refine congrArg (Path.mk · path.domain) (List.ext_getElem? fun index => ?_)
  show (path.modify id fun segment => segment).segments[index]? = _
  rw [getElem?_modify]
  simp

/-- A path without the identifier stays as it is. -/
theorem modify_of_find?_eq_none (none : path.find? id = none) : path.modify id change = path := by
  have same : path.modify id change = path.modify id fun segment => segment :=
    modify_congr fun segment found => by rw [none] at found; cases found
  rw [same, modify_self]

/-- A change as it is found by identifiers. -/
theorem find?_modify (path : Path α) (id id' : SegmentId)
    (sameId : ∀ segment, (change segment).id = segment.id) :
    (path.modify id change).find? id' =
      (path.find? id').map fun segment => if id' = id then change segment else segment := by
  rw [find?_eq_bind, find?_eq_bind, index?_of_ids (ids_modify sameId)]
  cases place : path.index? id' with
  | none => rfl
  | some index =>
    rw [Option.bind_some, Option.bind_some, getElem?_modify]
    obtain ⟨segment, found, isId⟩ := index?_eq_some place
    rw [found, Option.map_some, Option.map_some]
    by_cases same : id' = id
    · rw [if_pos same, if_pos (same ▸ place)]
    · rw [if_neg same, if_neg]
      intro other
      obtain ⟨segment', found', isId'⟩ := index?_eq_some other
      rw [found, Option.some.injEq] at found'
      exact same (isId.symm.trans (found' ▸ isId'))

/-! ### Room to move -/

/-- The room of an anchor is told by the anchors that do not move. -/
theorem bounds?_of_fixed {moving : SegmentId → Bool} (same : other.ids = path.ids)
    (domain : other.domain = path.domain)
    (fixed : ∀ index, path.isFixed moving index = true →
      other.anchorX? index = path.anchorX? index) (id : SegmentId) :
    other.bounds? id moving = path.bounds? id moving := by
  have isFixed : other.isFixed moving = path.isFixed moving :=
    funext fun index => isFixed_of_ids same
  have bound : ∀ places : List Nat, (places.find? (path.isFixed moving)).bind other.anchorX? =
      (places.find? (path.isFixed moving)).bind path.anchorX? := by
    intro places
    cases found : places.find? (path.isFixed moving) with
    | none => rfl
    | some index => exact fixed index (List.find?_some found)
  unfold bounds?
  rw [index?_of_ids same, size_eq_of_ids same, isFixed, domain]
  simp only [bound]

end Path

end Easing
