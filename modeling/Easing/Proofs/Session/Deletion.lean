/-
**Deleting is one filter.**

The anchors to delete are chosen once, in the path as it was. They are removed one after another,
each from what the removals before have left, and with each one goes what is selected of it. No
removal touches an end, so each finds its segment as if it were the first: together they are one
filter of the path and one of the selection.

* `Path.Distinct.remove?_eq`: one removal as a filter.
* `Session.foldl_removeAnchor_eq`: removals one after another.
* `Session.deleteSelection_eq_filter`: what is left after a deletion, and what it returns.
-/
import Easing.Proofs.Session.Settled

set_option linter.unusedSectionVars false

namespace Easing

variable {α : Type} [Scalar α]

/-! ### Removing segments from a path -/

/-- Where keys are distinct, erasing an entry leaves those with another key. -/
theorem eraseIdx_eq_filter {β κ : Type} [DecidableEq κ] {key : β → κ} {list : List β} {index : Nat}
    {b : β} (distinct : (list.map key).Nodup) (found : list[index]? = some b) :
    list.eraseIdx index = list.filter fun other => key other ≠ key b := by
  induction list generalizing index with
  | nil => cases found
  | cons head rest ih =>
    obtain ⟨fresh, distinct⟩ := List.nodup_cons.mp distinct
    cases index with
    | zero =>
      obtain rfl := Option.some.inj found
      have others : ∀ other ∈ rest, decide (key other ≠ key head) = true := by
        intro other member
        refine decide_eq_true fun same => fresh ?_
        exact same ▸ List.mem_map_of_mem member
      rw [List.eraseIdx_cons_zero, List.filter_cons_of_neg (by simp), List.filter_eq_self.mpr others]
    | succ index =>
      have other : key head ≠ key b := fun same =>
        fresh (same ▸ List.mem_map_of_mem (List.mem_of_getElem? found))
      rw [List.eraseIdx_cons_succ, ih distinct found, List.filter_cons_of_pos (by simpa using other)]

namespace Path

variable {path thinner : Path α} {id : SegmentId} {ids : List SegmentId}

/-- The path without the segments under some identifiers. -/
def without (path : Path α) (ids : List SegmentId) : Path α :=
  { path with segments := path.segments.filter fun segment => segment.id ∉ ids }

theorem without_nil (path : Path α) : path.without [] = path := by
  unfold without
  simp

theorem without_cons (path : Path α) (id : SegmentId) (ids : List SegmentId) :
    path.without (id :: ids) = (path.without [id]).without ids := by
  unfold without
  simp only [List.filter_filter, List.mem_cons, List.not_mem_nil, or_false, not_or, Bool.decide_and,
    Bool.and_comm]

theorem mem_ids_without : id ∈ (path.without ids).ids ↔ id ∈ path.ids ∧ id ∉ ids := by
  unfold Path.ids without
  simp only [List.mem_map, List.mem_filter, decide_eq_true_eq]
  constructor
  · rintro ⟨segment, ⟨member, kept⟩, rfl⟩
    exact ⟨⟨segment, member, rfl⟩, kept⟩
  · rintro ⟨⟨segment, member, rfl⟩, kept⟩
    exact ⟨segment, ⟨member, kept⟩, rfl⟩

/-- Nothing is gone where there was nothing. -/
theorem without_of_not_mem (absent : id ∉ path.ids) : path.without [id] = path := by
  refine congrArg (Path.mk · path.domain) (List.filter_eq_self.mpr fun segment member => ?_)
  refine decide_eq_true fun gone => absent ?_
  rw [← List.mem_singleton.mp gone]
  exact id_mem member

/-- The segment at an index is all that there is under its identifier. -/
theorem Distinct.eraseIdx_eq (distinct : path.Distinct) {segment : Segment α} {index : Nat}
    (found : path.segments[index]? = some segment) :
    path.segments.eraseIdx index = (path.without [segment.id]).segments := by
  rw [eraseIdx_eq_filter distinct found]
  unfold without
  simp only [List.mem_singleton]

theorem Distinct.size_without (distinct : path.Distinct) (present : id ∈ path.ids) :
    (path.without [id]).size + 1 = path.size := by
  obtain ⟨segment, member, rfl⟩ := List.mem_map.mp present
  obtain ⟨index, bound, rfl⟩ := List.mem_iff_getElem.mp member
  have erased := distinct.eraseIdx_eq (List.getElem?_eq_getElem bound)
  unfold size
  rw [← erased, List.length_eraseIdx_of_lt bound]
  omega

/-- Removing an identifier that is not at an end. -/
theorem Distinct.remove?_eq (distinct : path.Distinct) (inner : path.isEndpoint id = false) :
    path.remove? id = if id ∈ path.ids then some (path.without [id]) else none := by
  unfold remove?
  rw [inner, if_neg Bool.false_ne_true]
  cases place : path.index? id with
  | none =>
    have absent : id ∉ path.ids := by
      intro member
      obtain ⟨segment, inside, isId⟩ := List.mem_map.mp member
      have := List.findIdx?_eq_none_iff.mp place segment inside
      exact of_decide_eq_false this isId
    rw [if_neg absent]
    rfl
  | some index =>
    obtain ⟨segment, found, rfl⟩ := index?_eq_some place
    rw [if_pos (id_mem (List.mem_of_getElem? found)), Option.map_some, distinct.eraseIdx_eq found]
    rfl

/-- The ends of a thinned path have the identifiers that they had. -/
theorem Thinned.isEndpoint (thinned : Thinned path thinner) (id : SegmentId) :
    thinner.isEndpoint id = path.isEndpoint id := by
  unfold Path.isEndpoint isFirst isLast
  rw [thinned.first, thinned.last]

end Path

namespace Session

open Easing.Path

theorem mem_anchors {selection : Selection α} {id : SegmentId} :
    id ∈ selection.anchors ↔ selection.contains (Item.anchor id) = true := by
  unfold Selection.anchors Selection.items
  rw [Selection.contains_iff]
  simp only [List.mem_map, List.mem_filter, decide_eq_true_eq]
  constructor
  · rintro ⟨item, ⟨⟨entry, member, rfl⟩, part⟩, rfl⟩
    exact ⟨entry, member, Item.eq_anchor rfl part⟩
  · rintro ⟨entry, member, isAnchor⟩
    exact ⟨entry.item, ⟨⟨entry, member, rfl⟩, by rw [isAnchor]; rfl⟩, by rw [isAnchor]; rfl⟩

/-! ### Removing anchors one after another -/

/-- An item belongs to a segment of the path under one of some identifiers. -/
def partOf (path : Path α) (ids : List SegmentId) (item : Item) : Bool :=
  item.segment ∈ path.ids && item.segment ∈ ids

theorem partOf_cons_of_mem {path : Path α} {id : SegmentId} (present : id ∈ path.ids)
    (ids : List SegmentId) (item : Item) :
    (!partOf (path.without [id]) ids item && item.segment ≠ id) = !partOf path (id :: ids) item := by
  unfold partOf
  by_cases same : item.segment = id
  · simp [same, present]
  · simp [same, mem_ids_without]

theorem partOf_cons_of_not_mem {path : Path α} {id : SegmentId} (absent : id ∉ path.ids)
    (ids : List SegmentId) (item : Item) : partOf path (id :: ids) item = partOf path ids item := by
  unfold partOf
  by_cases same : item.segment = id
  · simp [same, absent]
  · simp [same]

/-- One removal, of an identifier that is not at an end. -/
theorem removeAnchor_eq {session : Session α} {id : SegmentId} (count : Nat)
    (distinct : session.path.Distinct) (inner : session.path.isEndpoint id = false) :
    removeAnchor (session, count) id =
      if id ∈ session.path.ids then
        ({ session with
          path := session.path.without [id]
          selection := session.selection.removeSegment id }, count + 1)
      else (session, count) := by
  unfold removeAnchor
  rw [distinct.remove?_eq inner]
  by_cases present : id ∈ session.path.ids
  · rw [if_pos present, if_pos present]
  · rw [if_neg present, if_neg present]

/-- **Removing anchors one after another** takes the segments of the path under their identifiers
out of the path, with all that is selected of these segments, and counts them. -/
theorem foldl_removeAnchor_eq (ids : List SegmentId) (session : Session α) (count : Nat)
    (distinct : session.path.Distinct)
    (inner : ∀ id ∈ ids, session.path.isEndpoint id = false) :
    (ids.foldl removeAnchor (session, count)).1 =
        { session with
          path := session.path.without ids
          selection := session.selection.retain fun item => !partOf session.path ids item } ∧
      (ids.foldl removeAnchor (session, count)).2 + (session.path.without ids).size =
        count + session.path.size := by
  induction ids generalizing session count with
  | nil =>
    rw [without_nil]
    refine ⟨?_, rfl⟩
    have all : (fun item => !partOf session.path [] item) = fun _ => true := by
      funext item
      simp [partOf]
    rw [all, retain_all]
    rfl
  | cons id ids ih =>
    have here := inner id List.mem_cons_self
    have later : ∀ other ∈ ids, session.path.isEndpoint other = false :=
      fun other member => inner other (List.mem_cons_of_mem _ member)
    rw [List.foldl_cons, without_cons, removeAnchor_eq count distinct here]
    by_cases present : id ∈ session.path.ids
    · have thinned : Thinned session.path (session.path.without [id]) := by
        have removed := distinct.remove?_eq here
        rw [if_pos present] at removed
        exact remove?_spec removed distinct
      obtain ⟨left, counted⟩ := ih
        { session with
          path := session.path.without [id]
          selection := session.selection.removeSegment id } (count + 1)
        (thinned.distinct distinct) fun other member =>
          (thinned.isEndpoint other).trans (later other member)
      rw [if_pos present]
      constructor
      · rw [left]
        unfold Selection.removeSegment
        simp only [retain_retain, partOf_cons_of_mem present]
      · have one := distinct.size_without present
        calc _ = count + 1 + (session.path.without [id]).size := counted
          _ = count + session.path.size := by omega
    · obtain ⟨left, counted⟩ := ih session count distinct later
      rw [if_neg present, without_of_not_mem present]
      refine ⟨?_, counted⟩
      rw [left]
      simp only [partOf_cons_of_not_mem present]

/-! ### Deleting the selection -/

/-- The anchor of an identifier is selected, and not at an end. -/
def isDoomed (session : Session α) (id : SegmentId) : Bool :=
  session.selection.contains (Item.anchor id) && !session.path.isEndpoint id

variable [Numeral α]

/-- **Deleting removes exactly the selected interior anchors.** The other segments stay as they are
and in their order. From the selection goes every part of the removed segments, and nothing else;
what stays keeps its time and its remembered point. The removed segments are counted, and when there
are none the session is as it was. -/
theorem deleteSelection_eq_filter (session : Session α) (distinct : session.path.Distinct) :
    let deleted := session.deleteSelection
    deleted.1.path =
        { session.path with
          segments := session.path.segments.filter fun segment => !session.isDoomed segment.id } ∧
      deleted.1.selection.entries = session.selection.entries.filter (fun entry =>
        !(entry.item.segment ∈ session.path.ids && session.isDoomed entry.item.segment)) ∧
      deleted.2 = (session.path.segments.filter fun segment => session.isDoomed segment.id).length ∧
      (deleted.2 = 0 → deleted.1 = session) := by
  intro deleted
  let doomed := session.selection.anchors.filter fun id => !session.path.isEndpoint id
  have mem_doomed : ∀ id, decide (id ∈ doomed) = session.isDoomed id := by
    intro id
    rw [Bool.eq_iff_iff, decide_eq_true_iff, List.mem_filter, mem_anchors]
    unfold isDoomed
    rw [Bool.and_eq_true]
  obtain ⟨left, counted⟩ := foldl_removeAnchor_eq doomed session 0 distinct fun id member =>
    (Bool.not_eq_true' _).mp (List.mem_filter.mp member).2
  let thinned := doomed.foldl removeAnchor (session, 0)
  have settled : deleted.1 = (if 0 < thinned.2 then settle thinned.1 else thinned.1) ∧
      deleted.2 = thinned.2 := ⟨rfl, rfl⟩
  have path : deleted.1.path = thinned.1.path := by
    rw [settled.1]
    split
    · exact settle_path _
    · rfl
  have selection : deleted.1.selection = thinned.1.selection := by
    rw [settled.1]
    split
    · exact settle_selection _
    · rfl
  refine ⟨?_, ?_, ?_, fun none => ?_⟩
  · rw [path, left]
    unfold without
    simp only [← mem_doomed, decide_not]
  · rw [selection, left]
    unfold Selection.retain partOf
    simp only [mem_doomed]
  · have parts := List.length_eq_length_filter_add (l := session.path.segments)
      fun segment => session.isDoomed segment.id
    have counted' : thinned.2 + (session.path.segments.filter (·.id ∉ doomed)).length =
        session.path.segments.length := counted.trans (Nat.zero_add _)
    simp only [← mem_doomed, ← decide_not] at parts ⊢
    rw [settled.2]
    omega
  · rw [settled.2] at none
    rw [settled.1, if_neg (Nat.not_lt.mpr (Nat.le_of_eq none))]
    rcases foldl_removeAnchor_cases doomed (session, 0) with same | some
    · exact congrArg Prod.fst same
    · exact absurd some (Nat.not_lt.mpr (Nat.le_of_eq none))

/-- A selection of an end, of a twin with its handle, of the handle of another segment, and of a
segment that is gone. -/
def mixedSelection : Selection Float :=
  ((((Selection.only (Item.anchor ⟨0⟩) 1).insert (Item.anchor ⟨1⟩) 2).insert
    (Item.handle ⟨1⟩ .outgoing) 3).insert (Item.handle ⟨2⟩ .incoming) 4).insert (Item.anchor ⟨9⟩) 5

/-- Of a mixed selection the twin is deleted, with its handle. -/
theorem deleteSelection_mixed :
    let session := (ofPath twinAnchors ⟨4⟩ Settings.default).withSelection mixedSelection
    session.path.Distinct ∧ session.deleteSelection.1.path.ids = [⟨0⟩, ⟨2⟩, ⟨3⟩] ∧
      session.deleteSelection.1.selection.items =
        [Item.anchor ⟨0⟩, Item.handle ⟨2⟩ .incoming, Item.anchor ⟨9⟩] ∧
      session.deleteSelection.2 = 1 := by
  intro session
  have start : session.path = twinAnchors := ofPath_path _ _ _
  have distinct : session.path.Distinct := by
    rw [start]
    decide
  obtain ⟨path, selection, count, -⟩ := deleteSelection_eq_filter session distinct
  have doomed : ∀ id, session.isDoomed id =
      (mixedSelection.contains (Item.anchor id) && !twinAnchors.isEndpoint id) := by
    intro id
    unfold isDoomed
    rw [start]
    rfl
  refine ⟨distinct, ?_, ?_, ?_⟩
  · rw [path, start]
    simp only [doomed]
    decide
  · unfold Selection.items
    rw [selection, start]
    simp only [doomed]
    show (mixedSelection.entries.filter _).map _ = _
    decide
  · rw [count, start]
    simp only [doomed]
    decide

end Session

end Easing
