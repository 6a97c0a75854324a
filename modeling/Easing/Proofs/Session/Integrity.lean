/-
**The ends of a path and what is selected in it, over whole runs.**

Whatever a host calls, the first and the last segment of a path stay the first and the last, at zero
and at the end of the domain; no identifier occurs twice; and everything that is selected is part of
a segment of the path. The order of the anchors between the ends does not matter for this, and
neither do the positions of the calls.

* `Path.Framed`: the two ends, with distinct identifiers; `Path.Framed.insert`,
  `Path.Framed.moveItem`: inserting and moving keep them.
* `Selection.Within`: what is selected belongs to given segments.
* `Session.Intact`: both, the invariant; `Call.intact_step`: what one call does to it.
* `Call.intact_after_run`: the states that a run reaches.
-/
import Easing.Proofs.Session.Order

set_option linter.unusedSectionVars false

namespace Easing

open Scalar OrderedScalar

variable {α : Type} [Scalar α]

/-! ### The two ends -/

namespace Path

/-- Two ends under the given identifiers, at zero and at the end of the domain, and no identifier
twice. -/
structure Framed (first last : SegmentId) (domain : α) (path : Path α) : Prop where
  distinct : path.Distinct
  pinned : path.Pinned
  domain : path.domain = domain
  first : path.ids.head? = some first
  last : path.ids.getLast? = some last

namespace Framed

variable {first last : SegmentId} {domain : α} {path other : Path α}

theorem of_ends (framed : Framed first last domain path) (distinct : other.Distinct)
    (two : 2 ≤ other.size) (sameDomain : other.domain = path.domain)
    (sameFirst : other.segments.head? = path.segments.head?)
    (sameLast : other.segments.getLast? = path.segments.getLast?) :
    Framed first last domain other where
  distinct := distinct
  pinned := framed.pinned.of_ends two sameDomain sameFirst sameLast
  domain := sameDomain.trans framed.domain
  first := by rw [ids, List.head?_map, sameFirst, ← List.head?_map]; exact framed.first
  last := by rw [ids, List.getLast?_map, sameLast, ← List.getLast?_map]; exact framed.last

theorem of_ids (framed : Framed first last domain path) (pinned : other.Pinned)
    (sameDomain : other.domain = path.domain) (same : other.ids = path.ids) :
    Framed first last domain other where
  distinct := by unfold Distinct; rw [same]; exact framed.distinct
  pinned := pinned
  domain := sameDomain.trans framed.domain
  first := by rw [same]; exact framed.first
  last := by rw [same]; exact framed.last

theorem thinned (framed : Framed first last domain path) (thinned : Thinned path other) :
    Framed first last domain other :=
  framed.of_ends (thinned.distinct framed.distinct) (thinned.two framed.pinned.two) thinned.domain
    thinned.first thinned.last

theorem sameAnchors (framed : Framed first last domain path) (same : SameAnchors path other) :
    Framed first last domain other :=
  framed.of_ids (same.pinned framed.pinned) same.domain same.ids

section Ordered

variable [OrderedScalar α]

/-- **An inserted anchor goes between the ends.** -/
theorem insert (framed : Framed first last domain path) {supply : IdSupply}
    (issued : path.IssuedBy supply) {point : Point α} (within : ¬domain < point.x) :
    ∃ id inserted supply', path.insert supply point = .ok (id, inserted, supply') ∧
      Framed first last domain inserted ∧ inserted.IssuedBy supply' ∧ id ∈ inserted.ids := by
  obtain ⟨start, rest, form, -⟩ := framed.pinned.exists_first
  have inner : insertionIndex start path.segments point.x < path.size := by
    have two : 2 ≤ path.segments.length := framed.pinned.two
    rcases List.eq_nil_or_concat path.segments with none | ⟨front, stop, segments⟩
    · rw [none] at two
      simp at two
    · rw [List.concat_eq_append] at segments
      have some : front ≠ [] := by
        rintro rfl
        rw [segments] at two
        simp at two
      have right : ¬stop.point.x < point.x := by
        intro left
        have atEnd := beq_iff.mp (framed.pinned.last stop (by rw [segments]; simp))
        rw [framed.domain] at atEnd
        exact within (lt_of_le_of_lt atEnd.2 left)
      unfold size
      rw [segments]
      exact insertionIndex_lt_of_last some right
  let new : Segment α := { Knot.corner point with id := ⟨supply.next⟩ }
  have fresh : new.id = ⟨supply.next⟩ := rfl
  obtain ⟨sameFirst, sameLast, distinct, issued'⟩ :=
    insertAt_spec fresh issued framed.distinct (Nat.succ_pos _) inner
  refine ⟨_, _, _, insert_eq form supply point, framed.of_ends distinct ?_ rfl sameFirst sameLast,
    issued', ?_⟩
  · exact Nat.le_trans framed.pinned.two List.length_le_length_insertIdx
  · refine List.mem_map.mpr ⟨new, ?_, rfl⟩
    exact (List.mem_insertIdx (Nat.le_of_lt inner)).mpr (Or.inl rfl)

open Session in
/-- **A moved item leaves the ends where they are.** -/
theorem moveItem (framed : Framed first last domain path) (width : 0 < domain)
    (selection : Selection α) (paired : Bool) (item : Item) (target : Point α) :
    ∃ next, moveItem selection paired path item target = .ok next ∧
      Framed first last domain next ∧ next.ids = path.ids := by
  obtain ⟨next, moved, sameDomain, all⟩ := moveItem_spec selection paired item target
    framed.distinct (by rw [framed.domain]; exact le_of_lt width)
  have same := ids_of_forall₂ all
  have sizes := size_eq_of_ids same
  have end_x : ∀ (index : Nat) (segment changed : Segment α) (place : α),
      path.segments[index]? = some segment → next.segments[index]? = some changed →
      (segment.point.x == place) = true → IsNumber place →
      (segment.id = item.segment → (placeOf selection path item target).x = place) →
      (changed.point.x == place) = true := by
    intro index segment changed place found found' before number moves
    have step := getElem?_of_forall₂ all found found'
    by_cases isAnchor : item = Item.anchor segment.id
    · rw [step.anchor (by rw [isAnchor]; rfl) (by rw [isAnchor]; rfl),
        moves (by rw [isAnchor]; rfl)]
      exact beq_iff.mpr ⟨le_self number, le_self number⟩
    · rwa [step.point_of_ne isAnchor]
  refine ⟨next, moved, framed.of_ids ⟨by rw [sizes]; exact framed.pinned.two, ?_, ?_⟩ sameDomain
    same, same⟩
  · intro changed found'
    rw [List.head?_eq_getElem?] at found'
    obtain ⟨segment, found, -⟩ := getElem?_of_ids same.symm found'
    refine end_x 0 segment changed 0 found found' ?_ isNumber_zero fun sameId => ?_
    · exact framed.pinned.first segment (by rwa [List.head?_eq_getElem?])
    · rw [placeOf_eq framed.distinct found sameId, if_pos rfl]
  · intro changed found'
    rw [List.getLast?_eq_getElem?] at found'
    obtain ⟨segment, found, -⟩ := getElem?_of_ids same.symm found'
    have two := framed.pinned.two
    have length : next.segments.length = path.size := sizes
    rw [length] at found found'
    rw [sameDomain]
    refine end_x _ segment changed path.domain found found' ?_ ?_ fun sameId => ?_
    · exact framed.pinned.last segment (by rwa [List.getLast?_eq_getElem?])
    · rw [framed.domain]
      exact isNumber_right (le_of_lt width)
    · rw [placeOf_eq framed.distinct found sameId, if_neg (by omega), if_pos (by omega)]

open Session in
/-- So do all moves of a drag. -/
theorem foldlM_moveItem (framed : Framed first last domain path) (width : 0 < domain)
    (selection : Selection α) (paired : Bool) (target : Point α → Point α)
    (moves : List (Item × Point α)) :
    ∃ next, moves.foldlM (fun path move =>
        Session.moveItem selection paired path move.1 (target move.2)) path = .ok next ∧
      Framed first last domain next ∧ next.ids = path.ids := by
  induction moves generalizing path with
  | nil => exact ⟨path, rfl, framed, rfl⟩
  | cons move moves ih =>
    obtain ⟨middle, moved, framed', same⟩ :=
      framed.moveItem width selection paired move.1 (target move.2)
    obtain ⟨next, run, framed'', same'⟩ := ih framed'
    refine ⟨next, ?_, framed'', same'.trans same⟩
    rw [List.foldlM_cons, moved]
    exact run

end Ordered

end Framed

/-- All other segments are still there when one was removed. -/
theorem mem_ids_of_remove? {path thinner : Path α} {id other : SegmentId}
    (removed : path.remove? id = some thinner) (member : other ∈ path.ids) (differs : other ≠ id) :
    other ∈ thinner.ids := by
  unfold remove? at removed
  split at removed
  · cases removed
  · obtain ⟨index, at?, rfl⟩ := Option.map_eq_some_iff.mp removed
    obtain ⟨segment, found, sameId⟩ := index?_eq_some at?
    obtain ⟨place, found'⟩ := List.mem_iff_getElem?.mp member
    show other ∈ (path.segments.eraseIdx index).map (·.id)
    rw [← List.eraseIdx_map]
    refine List.mem_eraseIdx_iff_getElem?.mpr ⟨place, ?_, found'⟩
    rintro rfl
    have here := id_of_getElem? found
    rw [found', sameId] at here
    exact differs (Option.some.inj here)

end Path

/-! ### What is selected -/

namespace Selection

/-- Everything selected is part of one of the given segments. -/
def Within (ids : List SegmentId) (selection : Selection α) : Prop :=
  ∀ item, selection.contains item = true → item.segment ∈ ids

variable {ids : List SegmentId} {selection : Selection α}

theorem within_empty : Within ids (empty : Selection α) := nofun

theorem Within.insert (within : Within ids selection) {item : Item} (member : item.segment ∈ ids)
    (now : Nat) : Within ids (selection.insert item now) := by
  unfold Selection.insert
  split
  · exact within
  · intro other selected
    obtain ⟨entry, inside, rfl⟩ := contains_iff.mp selected
    rcases mem_insertByRank.mp inside with rfl | before
    · exact member
    · exact within _ (contains_iff.mpr ⟨entry, before, rfl⟩)

theorem within_only {item : Item} (member : item.segment ∈ ids) (now : Nat) :
    Within ids (only item now : Selection α) := within_empty.insert member now

theorem Within.retain (within : Within ids selection) (keep : Item → Bool) :
    Within ids (selection.retain keep) :=
  fun item selected => within item ((Session.contains_retain selection keep item).mp selected).1

theorem Within.toggle (within : Within ids selection) {item : Item} (member : item.segment ∈ ids)
    (now : Nat) : Within ids (selection.toggle item now) := by
  unfold Selection.toggle
  split
  · exact within.retain _
  · exact within.insert member now

theorem Within.freeze (within : Within ids selection) (pointOf : Item → Option (Point α)) :
    Within ids (selection.freeze pointOf) := by
  intro item selected
  rw [Session.contains_freeze] at selected
  exact within item selected

/-- When a segment goes, its parts leave the selection. -/
theorem Within.removeSegment (within : Within ids selection) {id : SegmentId}
    {others : List SegmentId} (rest : ∀ other ∈ ids, other ≠ id → other ∈ others) :
    Within others (selection.removeSegment id) := by
  intro item selected
  obtain ⟨before, kept⟩ := (Session.contains_retain selection _ item).mp selected
  exact rest _ (within item before) (by simpa using kept)

end Selection

namespace Session

open Easing.Path

theorem nearerHit_cases (position : Point α) (radius : α) (best : Option (Hit α))
    (target : Item × Point α) :
    nearerHit position radius best target = best ∨
      nearerHit position radius best target =
        some ⟨target.1, target.2, target.2.distance position⟩ := by
  unfold nearerHit
  dsimp only
  split
  · exact .inl rfl
  · split_ifs
    · exact .inr rfl
    · exact .inl rfl

/-- What is hit is part of a segment of the path. -/
theorem hitTest_mem {session : Session α} {position : Point α} {hit : Hit α}
    (found : session.hitTest position = some hit) : hit.item.segment ∈ session.path.ids := by
  have nearest : ∀ (targets : List (Item × Point α)) (best : Option (Hit α)),
      (∀ hit, best = some hit → hit.item.segment ∈ session.path.ids) →
      (∀ target ∈ targets, target.1.segment ∈ session.path.ids) →
      ∀ hit, targets.foldl (nearerHit position session.settings.hitRadius) best = some hit →
        hit.item.segment ∈ session.path.ids := by
    intro targets
    induction targets with
    | nil => exact fun best inside _ => inside
    | cons target targets ih =>
      intro best inside all
      refine ih _ ?_ fun other member => all other (List.mem_cons_of_mem _ member)
      intro hit isBest
      rcases nearerHit_cases position session.settings.hitRadius best target with same | same
      · exact inside hit (same.symm.trans isBest)
      · rw [← Option.some.inj (same.symm.trans isBest)]
        exact all target List.mem_cons_self
  refine nearest _ none nofun ?_ hit found
  intro target member
  obtain ⟨segment, inside, isTarget⟩ := List.mem_flatMap.mp member
  have own : target.1.segment = segment.id := by
    unfold targets handleTarget at isTarget
    rcases List.mem_cons.mp isTarget with rfl | isHandle
    · rfl
    · rcases List.mem_append.mp isHandle with isIncoming | isOutgoing
      · split at isIncoming
        · cases isIncoming
        · rw [List.mem_singleton.mp isIncoming]
          rfl
      · split at isOutgoing
        · cases isOutgoing
        · rw [List.mem_singleton.mp isOutgoing]
          rfl
  rw [own]
  exact id_mem inside

/-! ### The invariant -/

/-- The ends are those of a frame, and what is selected is part of the path. -/
structure Intact (first last : SegmentId) (domain : α) (session : Session α) : Prop where
  framed : Framed first last domain session.path
  issued : session.path.IssuedBy session.ids
  within : session.selection.Within session.path.ids

variable {first last : SegmentId} {domain : α} {session : Session α}

/-- Of a session with the same path, only what is selected matters. -/
theorem Intact.reselect {changed : Session α} (intact : Intact first last domain session)
    (path : changed.path = session.path) (ids : changed.ids = session.ids)
    (within : changed.selection.Within session.path.ids) : Intact first last domain changed where
  framed := by rw [path]; exact intact.framed
  issued := by rw [path, ids]; exact intact.issued
  within := by rwa [path]

theorem Intact.smoothed {changed : Session α} (intact : Intact first last domain session)
    (smoothed : Smoothed session changed) : Intact first last domain changed := by
  obtain ⟨anchors, keep, rest⟩ := smoothed
  rw [rest]
  refine ⟨intact.framed.sameAnchors anchors, anchors.issuedBy intact.issued, ?_⟩
  show (session.selection.retain keep).Within changed.path.ids
  rw [anchors.ids]
  exact intact.within.retain keep

theorem Intact.removeAnchor {state : Session α × Nat} (intact : Intact first last domain state.1)
    (id : SegmentId) : Intact first last domain (Session.removeAnchor state id).1 := by
  unfold Session.removeAnchor
  cases removed : state.1.path.remove? id with
  | none => exact intact
  | some path =>
    have thinned : Thinned state.1.path path := remove?_spec removed intact.framed.distinct
    exact
      { framed := intact.framed.thinned thinned
        issued := thinned.issuedBy intact.issued
        within := intact.within.removeSegment fun other member differs =>
          mem_ids_of_remove? removed member differs }

theorem Intact.foldl_removeAnchor {state : Session α × Nat}
    (intact : Intact first last domain state.1) (ids : List SegmentId) :
    Intact first last domain (ids.foldl Session.removeAnchor state).1 := by
  induction ids generalizing state with
  | nil => exact intact
  | cons id ids ih => exact ih (intact.removeAnchor id)

theorem Intact.pressDown (intact : Intact first last domain session) (event : PointerEvent α) :
    Intact first last domain (session.pressDown event) := by
  unfold Session.pressDown
  split
  · refine intact.reselect rfl rfl (Selection.Within.freeze ?_ _)
    show (selectOnPress session.selection _ event).Within session.path.ids
    unfold selectOnPress
    dsimp only
    cases found : hitTest { session with isDown := true, press := some event } event.position with
    | none =>
      simp only [Option.map_none]
      split
      · exact intact.within
      · exact Selection.within_empty
    | some hit =>
      have member : hit.item.segment ∈ session.path.ids := hitTest_mem found
      simp only [Option.map_some]
      split
      · split
        · exact intact.within
        · exact Selection.within_only member event.time
      · split
        · exact intact.within.insert member event.time
        · exact Selection.within_only member event.time
  · exact intact

theorem Intact.selectOnClick (intact : Intact first last domain session) (event : PointerEvent α) :
    (session.selectOnClick event).Within session.path.ids := by
  unfold Session.selectOnClick
  split
  · cases found : session.hitTest event.position with
    | none => exact intact.within
    | some hit =>
      dsimp only
      split
      · exact intact.within
      · exact intact.within.toggle (hitTest_mem found) event.time
  · exact intact.within

section Running

variable [OrderedScalar α]

theorem Intact.transform (intact : Intact first last domain session) (width : 0 < domain)
    (event : PointerEvent α) :
    ∃ moved, session.transform event = .ok moved ∧ Intact first last domain moved := by
  cases pressed : session.press with
  | none =>
    refine ⟨session, ?_, intact⟩
    unfold Session.transform
    rw [pressed]
    rfl
  | some press =>
    rw [session.transform_eq event pressed]
    split
    · exact ⟨session, rfl, intact⟩
    · obtain ⟨path, run, framed, same⟩ := intact.framed.foldlM_moveItem width session.selection
        event.modifiers.editsExclusively (session.dragTarget press event) (moves session.selection)
      rw [run]
      refine ⟨_, rfl, framed, ?_, ?_⟩
      · show path.IssuedBy session.ids
        unfold IssuedBy
        rw [same]
        exact intact.issued
      · show session.selection.Within path.ids
        rw [same]
        exact intact.within

theorem Intact.drag (intact : Intact first last domain session) (width : 0 < domain)
    (event : PointerEvent α) :
    ∃ dragged, session.drag event = .ok dragged ∧ Intact first last domain dragged := by
  unfold Session.drag
  split
  · obtain ⟨moved, run, intact'⟩ := intact.transform width event
    rw [run]
    exact ⟨_, rfl, intact'.reselect rfl rfl intact'.within⟩
  · exact ⟨session, rfl, intact⟩

theorem Intact.toggleSmoothing (intact : Intact first last domain session) (width : 0 < domain) :
    ∃ changed, session.toggleSmoothing = .ok changed ∧ Intact first last domain changed.1 := by
  have wide : 0 ≤ session.path.domain := by
    rw [intact.framed.domain]
    exact le_of_lt width
  obtain ⟨changed, run, smoothed⟩ := toggleSmoothing_ok wide
  exact ⟨changed, run, intact.smoothed smoothed⟩

theorem Intact.lift (intact : Intact first last domain session) (width : 0 < domain)
    (event : PointerEvent α) :
    ∃ lifted, session.lift event = .ok lifted ∧ Intact first last domain lifted := by
  have lifted : Intact first last domain { session with isDown := false } :=
    intact.reselect rfl rfl intact.within
  have selected : Intact first last domain { session with
      isDown := false
      selection := Session.selectOnClick { session with isDown := false } event } :=
    lifted.reselect rfl rfl (lifted.selectOnClick event)
  unfold Session.lift click
  dsimp only
  split
  · split
    · obtain ⟨changed, run, intact'⟩ := selected.toggleSmoothing width
      exact ⟨changed.1, by rw [run]; rfl, intact'⟩
    · exact ⟨_, rfl, selected⟩
  · exact ⟨_, rfl, lifted⟩

/-- The end of the domain is not to the left of what is moved into it. -/
theorem not_lt_clamp (width : 0 < domain) (x : α) : ¬domain < clamp 0 domain x := by
  unfold clamp
  split
  · exact not_le_of_lt width ∘ le_of_lt
  · split
    · exact fun less => not_le_of_lt less (le_of_lt less)
    · assumption

variable [Numeral α]

theorem Intact.withInserted (intact : Intact first last domain session) {point : Point α}
    (inside : ¬domain < point.x) (now : Nat) :
    Intact first last domain (session.withInserted point now).1 := by
  obtain ⟨id, inserted, supply, run, framed, issued, member⟩ :=
    intact.framed.insert intact.issued inside
  unfold Session.withInserted
  rw [run]
  exact ⟨framed, issued, Selection.within_only member now⟩

/-- What a method edits is intact before it is settled. -/
theorem Intact.edited (intact : Intact first last domain session) (width : 0 < domain)
    (edit : Edit α) :
    ∃ edited settles, edit.edited session = .ok (edited, settles) ∧
      Intact first last domain edited := by
  have wide : 0 ≤ session.path.domain := by
    rw [intact.framed.domain]
    exact le_of_lt width
  cases edit with
  | insert point now =>
    simp only [Edit.edited]
    rw [clampToDomain_ok wide]
    refine ⟨_, _, rfl, intact.withInserted ?_ now⟩
    show ¬domain < clamp 0 session.path.domain point.x
    rw [intact.framed.domain]
    exact not_lt_clamp width point.x
  | delete =>
    have counted : Intact first last domain (session, 0).1 := intact
    exact ⟨_, _, rfl, counted.foldl_removeAnchor _⟩
  | smooth =>
    obtain ⟨changed, run, intact'⟩ := intact.toggleSmoothing width
    simp only [Edit.edited]
    rw [run]
    exact ⟨_, _, rfl, intact'⟩
  | press event => exact ⟨_, _, rfl, intact.pressDown event⟩
  | drag event =>
    obtain ⟨dragged, run, intact'⟩ := intact.drag width event
    simp only [Edit.edited]
    rw [run]
    exact ⟨_, _, rfl, intact'⟩
  | release event =>
    simp only [Edit.edited]
    split
    · obtain ⟨lifted, run, intact'⟩ := intact.lift width event
      rw [run]
      exact ⟨_, _, rfl, intact'.reselect rfl rfl intact'.within⟩
    · exact ⟨_, _, rfl, intact⟩

theorem Intact.settle (intact : Intact first last domain session) :
    Intact first last domain session.settle :=
  intact.reselect (settle_path session) (settle_ids session) (by
    rw [settle_selection]
    exact intact.within)

end Running

end Session

/-! ### Runs -/

section Runs

variable [OrderedScalar α] [Numeral α] {first last : SegmentId} {domain : α} {session : Session α}

/-- **One call keeps a session intact**, and it does not fail. -/
theorem Call.intact_step (call : Call α) (intact : session.Intact first last domain)
    (width : 0 < domain) :
    ∃ next, call.run session = .ok next ∧ next.Intact first last domain := by
  have finished : ∀ {edited : Session α} {settles : Bool},
      call.edited session = .ok (edited, settles) → edited.Intact first last domain →
      ∃ next, call.run session = .ok next ∧ next.Intact first last domain := by
    intro edited settles run intact'
    refine ⟨call.finish (edited, settles), by rw [call.run_eq, run]; rfl, ?_⟩
    unfold Call.finish Call.shown
    split
    · split
      · exact intact'.settle.reselect rfl rfl intact'.settle.within
      · exact intact'.settle
    · exact intact'
  have kept : ∀ changed : Session α, changed.path = session.path → changed.ids = session.ids →
      changed.selection = session.selection → changed.Intact first last domain := by
    intro changed path ids selection
    exact intact.reselect path ids (by rw [selection]; exact intact.within)
  cases call with
  | edit change =>
    obtain ⟨edited, settles, run, intact'⟩ := intact.edited width change
    exact finished run intact'
  | setOptions options =>
    by_cases same : session.settings.compile = options
    · exact finished (if_pos same) intact
    · exact finished (if_neg same) (kept _ rfl rfl rfl)
  | freeze => exact finished rfl (intact.reselect rfl rfl (intact.within.freeze _))
  | transform event =>
    obtain ⟨moved, run, intact'⟩ := intact.transform width event
    have edited : (Call.transform event).edited session = .ok (moved, false) := by
      simp only [Call.edited]
      rw [run]
      rfl
    exact finished edited intact'
  | hover position modifiers => exact finished rfl (kept _ rfl rfl rfl)
  | settle => exact finished rfl intact

/-- Calls methods one after another. -/
def Call.runAll (calls : List (Call α)) (session : Session α) :
    Except DomainFault (Session α) :=
  calls.foldlM (fun session call => call.run session) session

/-- **A run keeps a session intact**, call after call. -/
theorem Call.intact_runAll (calls : List (Call α)) (intact : session.Intact first last domain)
    (width : 0 < domain) :
    ∃ reached, Call.runAll calls session = .ok reached ∧ reached.Intact first last domain := by
  induction calls generalizing session with
  | nil => exact ⟨session, rfl, intact⟩
  | cons call calls ih =>
    obtain ⟨next, run, intact'⟩ := call.intact_step intact width
    obtain ⟨reached, rest, intact''⟩ := ih intact'
    refine ⟨reached, ?_, intact''⟩
    unfold Call.runAll
    rw [List.foldlM_cons, run]
    exact rest

end Runs

/-- **The ends stay and the selection refers to the path.** A session that is opened on a path with
two ends at zero and at the end of a positive domain, and with distinct identifiers, runs through all
calls at all positions. Wherever it gets, the first and the last segment are the same ones, at zero
and at the end of the domain; no identifier occurs twice; and every selected item is part of a
segment of the path. -/
theorem Call.intact_after_run (path : Path Float) (ids : IdSupply) (settings : Settings Float)
    (calls : List (Call Float)) (pinned : path.Pinned) (width : 0 < path.domain)
    (distinct : path.Distinct) (issued : path.IssuedBy ids) :
    ∃ reached, Call.runAll calls (Session.ofPath path ids settings) = .ok reached ∧
      reached.path.ids.head? = path.ids.head? ∧
      reached.path.ids.getLast? = path.ids.getLast? ∧
      (∀ segment, reached.path.segments.head? = some segment → (segment.point.x == 0) = true) ∧
      (∀ segment, reached.path.segments.getLast? = some segment →
        (segment.point.x == path.domain) = true) ∧
      2 ≤ reached.path.size ∧ reached.path.domain = path.domain ∧ reached.path.ids.Nodup ∧
      ∀ item ∈ reached.selection.items, item.segment ∈ reached.path.ids := by
  have some : path.ids ≠ [] := by
    rw [← List.length_pos_iff, Path.length_ids]
    exact Nat.lt_of_lt_of_le Nat.zero_lt_two pinned.two
  have isFirst := List.head?_eq_some_head some
  have isLast := List.getLast?_eq_some_getLast some
  have opened : (Session.ofPath path ids settings).Intact _ _ path.domain :=
    { framed := by
        rw [Session.ofPath_path]
        exact ⟨distinct, pinned, rfl, isFirst, isLast⟩
      issued := by rwa [Session.ofPath_path, Session.ofPath_ids]
      within := by
        unfold Session.ofPath
        rw [Session.settle_selection]
        exact Selection.within_empty }
  obtain ⟨reached, run, intact⟩ := Call.intact_runAll calls opened width
  have framed := intact.framed
  refine ⟨reached, run, framed.first.trans isFirst.symm, framed.last.trans isLast.symm,
    framed.pinned.first, ?_, framed.pinned.two, framed.domain, framed.distinct, ?_⟩
  · rw [← framed.domain]
    exact framed.pinned.last
  · intro item selected
    obtain ⟨entry, member, rfl⟩ := List.mem_map.mp selected
    exact intact.within _ (Selection.contains_iff.mpr ⟨entry, member, rfl⟩)

/-- It does not matter that an insertion to the right of two twins leaves the path out of order. -/
theorem Call.intact_after_insert_right_of_twins :
    let calls : List (Call Float) := [.edit (.insert ⟨0.75, 0.5⟩ 0), .edit .smooth, .edit .delete]
    Session.twinAnchors.Pinned ∧ 0 < Session.twinAnchors.domain ∧ Session.twinAnchors.Distinct ∧
      Session.twinAnchors.IssuedBy ⟨4⟩ ∧
      ∃ reached, Call.runAll calls (Session.ofPath Session.twinAnchors ⟨4⟩ Settings.default) =
          .ok reached ∧ reached.path.ids.head? = some ⟨0⟩ ∧
        reached.path.ids.getLast? = some ⟨3⟩ ∧
        ∀ item ∈ reached.selection.items, item.segment ∈ reached.path.ids := by
  intro calls
  have pinned : Session.twinAnchors.Pinned := by decide +kernel
  have width : 0 < Session.twinAnchors.domain := by decide +kernel
  have distinct : Session.twinAnchors.Distinct := by decide
  have issued : Session.twinAnchors.IssuedBy ⟨4⟩ := by decide
  obtain ⟨reached, run, first, last, -, -, -, -, -, selected⟩ :=
    Call.intact_after_run Session.twinAnchors ⟨4⟩ Settings.default calls pinned width distinct issued
  exact ⟨pinned, width, distinct, issued, reached, run, first, last, selected⟩

end Easing
