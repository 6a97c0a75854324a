/-
**Smoothing changes handles alone.**

* `Path.SameAnchors`: two paths that differ in their handles at most.
* `Session.Smoothed`: what smoothing does to a session; some handles may leave the selection.
* `Session.toggleSmoothing_ok`: it never fails in a domain that is an interval.
-/
import Easing.Proofs.Handle

set_option linter.unusedSectionVars false

namespace Easing

variable {α : Type} [Scalar α]

/-! ### Paths with the same anchors -/

namespace Path

/-- Only handles have changed. -/
structure SameAnchors (path other : Path α) : Prop where
  domain : other.domain = path.domain
  anchors : other.segments.map (fun segment => (segment.id, segment.point)) =
    path.segments.map fun segment => (segment.id, segment.point)

namespace SameAnchors

variable {path other : Path α}

theorem refl (path : Path α) : SameAnchors path path := ⟨rfl, rfl⟩

theorem trans {third : Path α} (first : SameAnchors path other)
    (second : SameAnchors other third) : SameAnchors path third :=
  ⟨second.domain.trans first.domain, second.anchors.trans first.anchors⟩

theorem ids (same : SameAnchors path other) : other.ids = path.ids := by
  have := congrArg (List.map Prod.fst) same.anchors
  rwa [List.map_map, List.map_map] at this

theorem points (same : SameAnchors path other) :
    other.segments.map (·.point) = path.segments.map (·.point) := by
  have := congrArg (List.map Prod.snd) same.anchors
  rwa [List.map_map, List.map_map] at this

theorem distinct (same : SameAnchors path other) (distinct : path.Distinct) : other.Distinct := by
  unfold Distinct
  rwa [same.ids]

theorem issuedBy (same : SameAnchors path other) {supply : IdSupply}
    (issued : path.IssuedBy supply) : other.IssuedBy supply := by
  unfold IssuedBy
  rwa [same.ids]

theorem ascending (same : SameAnchors path other) (ascending : path.Ascending) :
    other.Ascending := by
  have points : (path.segments.map (·.point)).Pairwise fun left right => left.x ≤ right.x :=
    List.pairwise_map.mpr ascending
  rw [← same.points, List.pairwise_map] at points
  exact points

theorem pinned (same : SameAnchors path other) (pinned : path.Pinned) : other.Pinned where
  two := by
    have length := congrArg List.length same.points
    rw [List.length_map, List.length_map] at length
    unfold size
    rw [length]
    exact pinned.two
  first := by
    intro segment found
    have head := congrArg List.head? same.points
    rw [List.head?_map, List.head?_map, found, Option.map_some] at head
    obtain ⟨before, found', point⟩ := Option.map_eq_some_iff.mp head.symm
    rw [← point]
    exact pinned.first before found'
  last := by
    intro segment found
    have last := congrArg List.getLast? same.points
    rw [List.getLast?_map, List.getLast?_map, found, Option.map_some] at last
    obtain ⟨before, found', point⟩ := Option.map_eq_some_iff.mp last.symm
    rw [← point, same.domain]
    exact pinned.last before found'

end SameAnchors

/-- A change of the handles of one segment leaves the anchors. -/
theorem sameAnchors_modify {path : Path α} {id : SegmentId} {change : Segment α → Segment α}
    (only : ∀ segment, path.find? id = some segment → OnlyHandles segment (change segment)) :
    SameAnchors path (path.modify id change) := by
  refine ⟨rfl, ?_⟩
  unfold find? at only
  show (modifyFirst id change path.segments).map _ = path.segments.map _
  generalize path.segments = segments at only
  induction segments with
  | nil => rfl
  | cons segment rest ih =>
    unfold modifyFirst
    split
    case isTrue same =>
      obtain ⟨sameId, samePoint⟩ := only segment (List.find?_cons_of_pos (by simpa using same))
      rw [List.map_cons, List.map_cons, sameId, samePoint]
    case isFalse other =>
      rw [List.map_cons, List.map_cons, ih]
      intro found isFound
      exact only found (by rwa [List.find?_cons_of_neg (by simpa using other)])

end Path

namespace Session

open Easing.Path

theorem retain_retain (selection : Selection α) (keep keep' : Item → Bool) :
    (selection.retain keep).retain keep' = selection.retain fun item => keep' item && keep item := by
  unfold Selection.retain
  simp only [List.filter_filter]

theorem retain_all (selection : Selection α) : selection.retain (fun _ => true) = selection := by
  unfold Selection.retain
  simp only [List.filter_true]

/-! ### Smoothing a selection -/

/-- Only handles have changed; some may have left the selection. -/
structure Smoothed (session changed : Session α) : Prop where
  anchors : SameAnchors session.path changed.path
  rest : ∃ keep, changed =
    { session with path := changed.path, selection := session.selection.retain keep }

theorem Smoothed.refl (session : Session α) : Smoothed session session :=
  ⟨SameAnchors.refl _, fun _ => true, by rw [retain_all]⟩

theorem Smoothed.trans {session changed last : Session α} (first : Smoothed session changed)
    (second : Smoothed changed last) : Smoothed session last := by
  obtain ⟨anchors, keep, rest⟩ := first
  obtain ⟨anchors', keep', rest'⟩ := second
  refine ⟨anchors.trans anchors', fun item => keep' item && keep item, ?_⟩
  rw [rest', rest, retain_retain]

theorem smoothed_flatten (session : Session α) (id : SegmentId) :
    Smoothed session (session.flatten id) :=
  ⟨sameAnchors_modify fun _ _ => ⟨rfl, rfl⟩, _, congrArg
    (fun selection => { session with path := session.path.modify id Segment.flatten, selection })
    (retain_retain session.selection _ _)⟩

theorem smoothed_foldl_flatten (session : Session α) (ids : List SegmentId) :
    Smoothed session (ids.foldl flatten session) := by
  induction ids generalizing session with
  | nil => exact Smoothed.refl session
  | cons id ids ih => exact (smoothed_flatten session id).trans (ih _)

theorem smoothAnchor_ok {path : Path α} (width : 0 ≤ path.domain) (length : α) (id : SegmentId) :
    ∃ other, smoothAnchor length path id = .ok other ∧ SameAnchors path other := by
  unfold smoothAnchor
  cases found : path.find? id with
  | none => exact ⟨path, rfl, SameAnchors.refl path⟩
  | some segment =>
    obtain ⟨changed, smoothed, only⟩ := smoothSegment_ok width segment
      ((path.previous? id).map (·.point)) ((path.next? id).map (·.point)) length
    simp only [smoothed]
    refine ⟨_, rfl, sameAnchors_modify fun other isOther => ?_⟩
    rw [found, Option.some.injEq] at isOther
    rwa [← isOther]

theorem foldlM_smoothAnchor_ok {path : Path α} (width : 0 ≤ path.domain) (length : α)
    (ids : List SegmentId) :
    ∃ other, ids.foldlM (smoothAnchor length) path = .ok other ∧ SameAnchors path other := by
  induction ids generalizing path with
  | nil => exact ⟨path, rfl, SameAnchors.refl path⟩
  | cons id ids ih =>
    obtain ⟨next, smoothed, same⟩ := smoothAnchor_ok width length id
    obtain ⟨last, run, same'⟩ := ih (by rwa [same.domain])
    refine ⟨last, ?_, same.trans same'⟩
    rw [List.foldlM_cons, smoothed]
    exact run

theorem toggleSmoothing_ok {session : Session α} (width : 0 ≤ session.path.domain) :
    ∃ changed, session.toggleSmoothing = .ok changed ∧ Smoothed session changed.1 := by
  unfold toggleSmoothing
  split
  · obtain ⟨path, run, same⟩ := foldlM_smoothAnchor_ok width
      (session.settings.smoothingRatio * session.path.domain) session.selection.anchors
    simp only [run]
    exact ⟨_, rfl, same, fun _ => true, by rw [retain_all]⟩
  · exact ⟨_, rfl, smoothed_foldl_flatten session session.selection.anchors⟩

end Session

end Easing
