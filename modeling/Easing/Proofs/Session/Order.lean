/-
**The order of anchors over whole runs.**

A session that is opened on a path in order keeps it so, whatever is edited, but for one thing: an
inserted anchor goes after the first of the nearest anchors to its left, and it belongs after the
last one. The two differ where anchors share an x, or are so near that their distances do.

* `Session.Ordered`: the invariant, with what a gesture remembers.
* `Edit.step`: what one call does to it.
* `Edit.ascending_after_every_call_iff`: the runs that keep the order, exactly.
-/
import Easing.Proofs.Session.Dragging
import Easing.Proofs.Session.Smoothing

set_option linter.unusedSectionVars false

namespace Easing

open Scalar OrderedScalar Easing.Path

variable {α : Type} [Scalar α]

namespace Session

/-! ### What is remembered, when a path or a selection gets smaller -/

theorem moves_retain (selection : Selection α) (keep : Item → Bool) :
    moves (selection.retain keep) = (moves selection).filter fun move => keep move.1 := by
  have step : ∀ entries : List (Selected α),
      (entries.filter fun entry => keep entry.item).filterMap (fun entry =>
          entry.frozen.map fun point => (entry.item, point)) =
        (entries.filterMap fun entry => entry.frozen.map fun point => (entry.item, point)).filter
          fun move => keep move.1 := by
    intro entries
    induction entries with
    | nil => rfl
    | cons entry rest ih =>
      cases kept : keep entry.item <;> cases frozen : entry.frozen <;>
        simp [kept, frozen, ih]
  exact step selection.entries

theorem contains_retain (selection : Selection α) (keep : Item → Bool) (item : Item) :
    (selection.retain keep).contains item = true ↔
      selection.contains item = true ∧ keep item = true := by
  rw [Selection.contains_iff, Selection.contains_iff]
  constructor
  · rintro ⟨entry, member, rfl⟩
    obtain ⟨inside, kept⟩ := List.mem_filter.mp member
    exact ⟨⟨entry, inside, rfl⟩, kept⟩
  · rintro ⟨⟨entry, inside, rfl⟩, kept⟩
    exact ⟨entry, List.mem_filter.mpr ⟨inside, kept⟩, rfl⟩

namespace Frozen

variable {selection : Selection α} {path other : Path α}

theorem retain (frozen : Frozen selection path) (keep : Item → Bool) :
    Frozen (selection.retain keep) path where
  complete := by
    intro id member selected
    obtain ⟨selected, kept⟩ := (contains_retain selection keep _).mp selected
    obtain ⟨point, moved⟩ := frozen.complete id member selected
    refine ⟨point, ?_⟩
    rw [moves_retain]
    exact List.mem_filter.mpr ⟨moved, kept⟩
  ordered := by
    refine frozen.ordered.imp fun step first second moved moved' => ?_
    rw [moves_retain] at moved moved'
    exact step first second (List.mem_filter.mp moved).1 (List.mem_filter.mp moved').1

theorem of_ids (frozen : Frozen selection path) (same : other.ids = path.ids) :
    Frozen selection other :=
  ⟨by rw [same]; exact frozen.complete, by rw [same]; exact frozen.ordered⟩

theorem thinned (frozen : Frozen selection path) (thinned : Thinned path other) :
    Frozen selection other where
  complete := fun id member => frozen.complete id ((thinned.sublist.map _).mem member)
  ordered := frozen.ordered.sublist (thinned.sublist.map _)

end Frozen

/-- All selected anchors can be dragged, or nothing can. -/
def Draggable (selection : Selection α) (path : Path α) : Prop :=
  Frozen selection path ∨ moves selection = []

theorem Draggable.retain {selection : Selection α} {path : Path α}
    (draggable : Draggable selection path) (keep : Item → Bool) :
    Draggable (selection.retain keep) path := by
  rcases draggable with frozen | none
  · exact Or.inl (frozen.retain keep)
  · refine Or.inr ?_
    rw [moves_retain, none]
    rfl

theorem Draggable.of_ids {selection : Selection α} {path other : Path α}
    (draggable : Draggable selection path) (same : other.ids = path.ids) :
    Draggable selection other := draggable.imp (fun frozen => frozen.of_ids same) fun none => none

theorem Draggable.thinned {selection : Selection α} {path other : Path α}
    (draggable : Draggable selection path) (thinned : Thinned path other) :
    Draggable selection other :=
  draggable.imp (fun frozen => frozen.thinned thinned) fun none => none

/-! ### The invariant -/

/-- The path is in order between its ends, and so is what a gesture remembers. -/
structure Ordered (session : Session α) : Prop where
  distinct : session.path.Distinct
  issued : session.path.IssuedBy session.ids
  pinned : session.path.Pinned
  ascending : session.path.Ascending
  width : 0 < session.path.domain
  draggable : session.isDown = true → Draggable session.selection session.path

theorem Smoothed.ordered {session changed : Session α} (smoothed : Smoothed session changed)
    (ordered : Ordered session) : Ordered changed := by
  obtain ⟨anchors, keep, rest⟩ := smoothed
  rw [rest]
  exact
    { distinct := anchors.distinct ordered.distinct
      issued := anchors.issuedBy ordered.issued
      pinned := anchors.pinned ordered.pinned
      ascending := anchors.ascending ordered.ascending
      width := by
        show 0 < changed.path.domain
        rw [anchors.domain]
        exact ordered.width
      draggable := fun down => ((ordered.draggable down).retain keep).of_ids anchors.ids }

/-! ### Deleting -/

/-- Of a session with the same path, only what is selected matters. -/
theorem Ordered.reselect {session changed : Session α} (ordered : Ordered session)
    (path : changed.path = session.path) (ids : changed.ids = session.ids)
    (draggable : changed.isDown = true → Draggable changed.selection session.path) :
    Ordered changed where
  distinct := by rw [path]; exact ordered.distinct
  issued := by rw [path, ids]; exact ordered.issued
  pinned := by rw [path]; exact ordered.pinned
  ascending := by rw [path]; exact ordered.ascending
  width := by rw [path]; exact ordered.width
  draggable := by rw [path]; exact draggable

theorem Ordered.settle [Numeral α] {session : Session α} (ordered : Ordered session) :
    Ordered session.settle :=
  ordered.reselect (settle_path session) (settle_ids session) <| by
    rw [settle_isDown, settle_selection]
    exact ordered.draggable

theorem Ordered.removeAnchor {state : Session α × Nat} (ordered : Ordered state.1)
    (id : SegmentId) : Ordered (removeAnchor state id).1 := by
  unfold Session.removeAnchor
  cases removed : state.1.path.remove? id with
  | none => exact ordered
  | some path =>
    have thinned : Thinned state.1.path path := remove?_spec removed ordered.distinct
    exact
      { distinct := thinned.distinct ordered.distinct
        issued := thinned.issuedBy ordered.issued
        pinned := thinned.pinned ordered.pinned
        ascending := thinned.ascending ordered.ascending
        width := by
          show 0 < path.domain
          rw [thinned.domain]
          exact ordered.width
        draggable := fun down =>
          ((ordered.draggable down).retain fun item => item.segment ≠ id).thinned thinned }

theorem Ordered.foldl_removeAnchor {state : Session α × Nat} (ordered : Ordered state.1)
    (ids : List SegmentId) : Ordered (ids.foldl Session.removeAnchor state).1 := by
  induction ids generalizing state with
  | nil => exact ordered
  | cons id ids ih => exact ih (ordered.removeAnchor id)

theorem Ordered.deleteSelection [Numeral α] {session : Session α} (ordered : Ordered session) :
    Ordered session.deleteSelection.1 := by
  have thinner (ids : List SegmentId) : Ordered (ids.foldl Session.removeAnchor (session, 0)).1 :=
    Ordered.foldl_removeAnchor ordered ids
  unfold Session.deleteSelection
  dsimp only
  split
  · exact (thinner _).settle
  · exact thinner _

/-! ### Gestures -/

section Moving

variable [OrderedScalar α]

theorem Ordered.pressDown {session : Session α} (ordered : Ordered session)
    (event : PointerEvent α) : Ordered (session.pressDown event) := by
  by_cases left : event.button = some .left
  · obtain ⟨selection, cursor, form⟩ := session.pressDown_eq left
    rw [form]
    exact ordered.reselect rfl rfl fun _ =>
      Or.inl (frozen_freeze { session with selection } ordered.distinct ordered.ascending)
  · unfold Session.pressDown
    rwa [if_neg left]

/-- Targets of remembered points are in order, whatever the pointer does. -/
def TargetsInOrder (session : Session α) : Prop :=
  ∀ (press event : PointerEvent α) (first second : Point α), first.x ≤ second.x →
    Below (session.dragTarget press event first).x (session.dragTarget press event second).x

/-- Without anything to be moved, all anchors stay. -/
theorem ascending_of_no_moves {path other : Path α} {selection : Selection α}
    {target : Point α → Point α} (progress : Progress selection target path [] other)
    (ascending : path.Ascending) : other.Ascending := by
  refine ascending_of_adjacent fun index changed changed' found' foundNext' => ?_
  obtain ⟨segment, found, -⟩ := getElem?_of_ids progress.still.ids.symm found'
  obtain ⟨next, foundNext, -⟩ := getElem?_of_ids progress.still.ids.symm foundNext'
  rw [progress.unmoved index segment changed found found' (by simp),
    progress.unmoved (index + 1) next changed' foundNext foundNext' (by simp)]
  exact ascending.le found foundNext (Nat.lt_succ_self index)

theorem Ordered.drag {session : Session α} (ordered : Ordered session)
    (inOrder : session.TargetsInOrder) (event : PointerEvent α) :
    ∃ dragged, session.drag event = .ok dragged ∧ Ordered dragged := by
  cases down : session.isDown with
  | false =>
    refine ⟨session, ?_, ordered⟩
    unfold Session.drag
    rw [down]
    rfl
  | true =>
    have draggable := ordered.draggable down
    cases pressed : session.press with
    | none =>
      refine ⟨session.hover event.position event.modifiers, ?_, ?_⟩
      · unfold Session.drag transform
        rw [down, pressed]
        rfl
      · exact ordered.reselect rfl rfl ordered.draggable
    | some press =>
      obtain ⟨changed, run, only, progress⟩ := session.transform_progress event pressed
        ordered.distinct ordered.ascending ordered.pinned (le_of_lt ordered.width)
      have still := progress.still
      have ascending : changed.path.Ascending := by
        rcases draggable with frozen | none
        · exact transform_ascending ordered.ascending ordered.pinned frozen (inOrder press event)
            progress
        · rw [none] at progress
          exact ascending_of_no_moves progress ordered.ascending
      refine ⟨changed.hover event.position event.modifiers, ?_, ?_⟩
      · unfold Session.drag
        rw [down, if_pos rfl, run]
        rfl
      · rw [only]
        exact
          { distinct := still.distinct ordered.distinct
            issued := by
              show changed.path.IssuedBy session.ids
              unfold IssuedBy
              rw [still.ids]
              exact ordered.issued
            pinned := still.pinned ordered.pinned
            ascending := ascending
            width := by
              show 0 < changed.path.domain
              rw [still.domain]
              exact ordered.width
            draggable := fun _ => draggable.of_ids still.ids }

/-- A click changes handles and the selection. -/
theorem Ordered.click {session : Session α} (ordered : Ordered session)
    (lifted : session.isDown = false) (event : PointerEvent α) :
    ∃ changed, session.click event = .ok changed ∧ Ordered changed := by
  have selected : Ordered { session with selection := session.selectOnClick event } :=
    ordered.reselect rfl rfl fun down => absurd (lifted.symm.trans down) Bool.false_ne_true
  unfold Session.click
  dsimp only
  split
  · obtain ⟨changed, run, smoothed⟩ :=
      toggleSmoothing_ok (le_of_lt selected.width)
    exact ⟨changed.1, by rw [run]; rfl, smoothed.ordered selected⟩
  · exact ⟨_, rfl, selected⟩

theorem Ordered.lift {session : Session α} (ordered : Ordered session) (event : PointerEvent α) :
    ∃ lifted, session.lift event = .ok lifted ∧ Ordered lifted := by
  have lifted : Ordered { session with isDown := false } :=
    ordered.reselect rfl rfl fun down => absurd down Bool.false_ne_true
  unfold Session.lift
  split
  · exact lifted.click rfl event
  · exact ⟨_, rfl, lifted⟩

theorem Ordered.release [Numeral α] {session : Session α} (ordered : Ordered session)
    (event : PointerEvent α) :
    ∃ released, session.release event = .ok released ∧ Ordered released.1 := by
  rw [release_eq]
  split
  · obtain ⟨lifted, run, held⟩ := ordered.lift event
    have settled : Ordered (Session.settle { lifted with grid := .coarse }) :=
      Ordered.settle (held.reselect rfl rfl held.draggable)
    rw [run]
    exact ⟨_, rfl, settled.reselect rfl rfl settled.draggable⟩
  · exact ⟨_, rfl, ordered⟩

/-! ### Inserting -/

/-- Nothing is dragged after an insertion. -/
theorem moves_only (item : Item) (now : Nat) :
    moves (Selection.only item now : Selection α) = [] := rfl

theorem Ordered.insertPoint [Numeral α] {session : Session α} (ordered : Ordered session)
    {point : Point α} (number : IsNumber point.x) (now : Nat) :
    ∃ inserted next, session.insertPoint point now = .ok (.ok (inserted, next)) ∧
      (next.path.Ascending ↔
        session.path.NearestIsLast (clamp 0 session.path.domain point.x)) ∧
      (next.path.Ascending → Ordered next) := by
  have width := le_of_lt ordered.width
  obtain ⟨id, inserted, supply, run, domain, pinned, distinct, issued, iff⟩ :=
    insert_spec ⟨clamp 0 session.path.domain point.x, point.y⟩ ordered.pinned
      ordered.distinct ordered.issued ordered.ascending (le_clamp width number)
      (clamp_le width number)
  let next : Session α := { session with
    path := inserted
    ids := supply
    selection := Selection.only (Item.anchor id) now }
  have step : next.path.Ascending → Ordered next := fun ascending =>
    { distinct
      issued
      pinned
      ascending
      width := by
        show 0 < inserted.domain
        rw [domain]
        exact ordered.width
      draggable := fun _ => Or.inr (moves_only _ now) }
  refine ⟨id, next.settle, ?_, ?_, ?_⟩
  · unfold Session.insertPoint
    rw [clampToDomain_ok width]
    show Except.ok (Except.map _ _) = _
    rw [run]
    rfl
  · rw [settle_path]
    exact iff
  · rw [settle_path]
    exact fun ascending => (step ascending).settle

end Moving

end Session

/-! ### Runs -/

/-- The insertions have a place in x. -/
def Edit.HasPlace : Edit α → Prop
  | .insert point _ => IsNumber point.x
  | _ => True

/-- Of the anchors to the left of an inserted point, the last one is nearer than every other. -/
def Edit.WellPlaced (edit : Edit α) (session : Session α) : Prop :=
  match edit with
  | .insert point _ => session.path.NearestIsLast (clamp 0 session.path.domain point.x)
  | _ => True

/-- One call keeps the order, unless it inserts an anchor at the wrong place. -/
theorem Edit.step [OrderedScalar α] [Numeral α] (edit : Edit α) {session : Session α}
    (ordered : session.Ordered) (inOrder : session.TargetsInOrder) (place : edit.HasPlace) :
    ∃ next, edit.run session = .ok next ∧
      (next.path.Ascending ↔ edit.WellPlaced session) ∧
      (next.path.Ascending → next.Ordered) := by
  have always : ∀ {next : Session α}, edit.run session = .ok next → next.Ordered →
      (edit.WellPlaced session ↔ True) → ∃ next, edit.run session = .ok next ∧
        (next.path.Ascending ↔ edit.WellPlaced session) ∧
        (next.path.Ascending → next.Ordered) := by
    intro next run held wellPlaced
    exact ⟨next, run, iff_of_true held.ascending (wellPlaced.mpr trivial), fun _ => held⟩
  cases edit with
  | insert point now =>
    obtain ⟨id, next, run, iff, held⟩ := ordered.insertPoint place now
    refine ⟨next, ?_, iff, held⟩
    simp only [Edit.run, run]
    rfl
  | delete => exact always rfl ordered.deleteSelection Iff.rfl
  | smooth =>
    obtain ⟨changed, run, smoothed⟩ :=
      Session.toggleSmoothing_ok (le_of_lt ordered.width)
    refine always ?_ (smoothed.ordered ordered) Iff.rfl
    simp only [Edit.run, run]
    rfl
  | press event => exact always rfl (ordered.pressDown event) Iff.rfl
  | drag event =>
    obtain ⟨dragged, run, held⟩ := ordered.drag inOrder event
    exact always run held Iff.rfl
  | release event =>
    obtain ⟨released, run, held⟩ := ordered.release event
    refine always ?_ held Iff.rfl
    simp only [Edit.run, run]
    rfl

theorem Edit.runAll_cons [Numeral α] (edit : Edit α) (edits : List (Edit α))
    (session : Session α) :
    Edit.runAll (edit :: edits) session = (edit.run session).bind (Edit.runAll edits) :=
  List.foldlM_cons

/-- The calls before the next one have kept the order. -/
def Edit.AllAscending [Numeral α] (edits : List (Edit α)) (session : Session α) : Prop :=
  ∀ n, ∃ reached, Edit.runAll (edits.take n) session = .ok reached ∧ reached.path.Ascending

/-- Every insertion is well placed where it happens. -/
def Edit.AllWellPlaced [Numeral α] (edits : List (Edit α)) (session : Session α) : Prop :=
  ∀ (n : Nat) (edit : Edit α) (reached : Session α), edits[n]? = some edit →
    Edit.runAll (edits.take n) session = .ok reached → edit.WellPlaced reached

/-- What happens after a first call. -/
theorem Edit.allAscending_cons [Numeral α] {edit : Edit α} {edits : List (Edit α)}
    {session next : Session α} (run : edit.run session = .ok next) :
    Edit.AllAscending (edit :: edits) session ↔
      session.path.Ascending ∧ Edit.AllAscending edits next := by
  have after : ∀ n, Edit.runAll ((edit :: edits).take (n + 1)) session =
      Edit.runAll (edits.take n) next := by
    intro n
    rw [List.take_succ_cons, Edit.runAll_cons, run]
    rfl
  constructor
  · intro all
    obtain ⟨reached, start, ascending⟩ := all 0
    obtain rfl : session = reached := Except.ok.inj start
    refine ⟨ascending, fun n => ?_⟩
    rw [← after]
    exact all (n + 1)
  · rintro ⟨ascending, all⟩ n
    cases n with
    | zero => exact ⟨session, rfl, ascending⟩
    | succ n =>
      rw [after]
      exact all n

theorem Edit.allWellPlaced_cons [Numeral α] {edit : Edit α} {edits : List (Edit α)}
    {session next : Session α} (run : edit.run session = .ok next) :
    Edit.AllWellPlaced (edit :: edits) session ↔
      edit.WellPlaced session ∧ Edit.AllWellPlaced edits next := by
  have after : ∀ n, Edit.runAll ((edit :: edits).take (n + 1)) session =
      Edit.runAll (edits.take n) next := by
    intro n
    rw [List.take_succ_cons, Edit.runAll_cons, run]
    rfl
  constructor
  · intro all
    refine ⟨all 0 edit session rfl rfl, fun n other reached found here => ?_⟩
    exact all (n + 1) other reached found (by rwa [after])
  · rintro ⟨first, all⟩ n other reached found here
    cases n with
    | zero =>
      obtain rfl : edit = other := Option.some.inj found
      obtain rfl : session = reached := Except.ok.inj here
      exact first
    | succ n => exact all n other reached found (by rwa [after] at here)

theorem Edit.allWellPlaced_singleton [Numeral α] {edit : Edit α} {session : Session α} :
    Edit.AllWellPlaced [edit] session ↔ edit.WellPlaced session := by
  constructor
  · intro all
    exact all 0 edit session rfl rfl
  · intro wellPlaced n other reached found here
    cases n with
    | zero =>
      obtain rfl : edit = other := Option.some.inj found
      obtain rfl : session = reached := Except.ok.inj here
      exact wellPlaced
    | succ n => exact absurd found (by simp)

/-- A run keeps the order exactly when its insertions are well placed. -/
theorem Edit.allAscending_iff {session : Session Float} (ordered : session.Ordered)
    {edits : List (Edit Float)} (places : ∀ edit ∈ edits, edit.HasPlace) :
    Edit.AllAscending edits session ↔ Edit.AllWellPlaced edits session := by
  induction edits generalizing session with
  | nil =>
    refine iff_of_true (fun n => ⟨session, ?_, ordered.ascending⟩) fun n edit reached found => ?_
    · rw [List.take_nil]
      rfl
    · simp at found
  | cons edit edits ih =>
    have inOrder : session.TargetsInOrder := fun press event _ _ le =>
      session.dragTarget_mono press event ordered.width le
    obtain ⟨next, run, iff, held⟩ := edit.step ordered inOrder (places edit List.mem_cons_self)
    have later : ∀ other ∈ edits, other.HasPlace := fun other member =>
      places other (List.mem_cons_of_mem _ member)
    rw [Edit.allAscending_cons run, Edit.allWellPlaced_cons run, ← iff]
    constructor
    · rintro ⟨-, all⟩
      obtain ⟨reached, start, ascending⟩ := all 0
      obtain rfl : next = reached := Except.ok.inj start
      exact ⟨ascending, (ih (held ascending) later).mp all⟩
    · rintro ⟨ascending, all⟩
      exact ⟨ordered.ascending, (ih (held ascending) later).mpr all⟩

theorem Session.ordered_ofPath [Numeral α] {path : Path α} {ids : IdSupply} {settings : Settings α}
    (ascending : path.Ascending) (pinned : path.Pinned) (width : 0 < path.domain)
    (distinct : path.Distinct) (issued : path.IssuedBy ids) :
    (Session.ofPath path ids settings).Ordered where
  distinct := by rwa [Session.ofPath_path]
  issued := by rwa [Session.ofPath_path, Session.ofPath_ids]
  pinned := by rwa [Session.ofPath_path]
  ascending := by rwa [Session.ofPath_path]
  width := by rwa [Session.ofPath_path]
  draggable := by
    rw [Session.ofPath_isDown]
    exact fun down => absurd down Bool.false_ne_true

/-- **When a path stays in order.** In a session that was opened on a path in order, the anchors are
in ascending x after every call exactly when, at every insertion, the last of the anchors to the left
of the new one is nearer to it than every other. -/
theorem Edit.ascending_after_every_call_iff (path : Path Float) (ids : IdSupply)
    (settings : Settings Float) (edits : List (Edit Float)) (ascending : path.Ascending)
    (pinned : path.Pinned) (width : 0 < path.domain) (distinct : path.Distinct)
    (issued : path.IssuedBy ids) (places : ∀ edit ∈ edits, edit.HasPlace) :
    (∀ n, ∃ reached,
        Edit.runAll (edits.take n) (Session.ofPath path ids settings) = .ok reached ∧
          reached.path.Ascending) ↔
      ∀ (n : Nat) (edit : Edit Float) (reached : Session Float), edits[n]? = some edit →
        Edit.runAll (edits.take n) (Session.ofPath path ids settings) = .ok reached →
        edit.WellPlaced reached := by
  exact Edit.allAscending_iff (Session.ordered_ofPath ascending pinned width distinct issued) places

/-- To the left of two twins there is one place for a new anchor. -/
theorem Edit.ascending_after_insert_left_of_twins :
    let edits : List (Edit Float) := [.insert ⟨0.25, 0.5⟩ 0]
    Session.twinAnchors.Ascending ∧ Session.twinAnchors.Pinned ∧
      0 < Session.twinAnchors.domain ∧ Session.twinAnchors.Distinct ∧
      Session.twinAnchors.IssuedBy ⟨4⟩ ∧ (∀ edit ∈ edits, edit.HasPlace) ∧
      ∀ n, ∃ reached,
        Edit.runAll (edits.take n) (Session.ofPath Session.twinAnchors ⟨4⟩ Settings.default) =
          .ok reached ∧ reached.path.Ascending := by
  intro edits
  have ascending : Session.twinAnchors.Ascending := by decide +kernel
  have pinned : Session.twinAnchors.Pinned := by decide +kernel
  have width : 0 < Session.twinAnchors.domain := by decide +kernel
  have distinct : Session.twinAnchors.Distinct := by decide
  have issued : Session.twinAnchors.IssuedBy ⟨4⟩ := by decide
  have places : ∀ edit ∈ edits, edit.HasPlace := by
    intro edit member
    rw [List.mem_singleton.mp member]
    show IsNumber (0.25 : Float)
    unfold IsNumber
    decide +kernel
  have exact := Edit.ascending_after_every_call_iff Session.twinAnchors ⟨4⟩ Settings.default edits
    ascending pinned width distinct issued places
  refine ⟨ascending, pinned, width, distinct, issued, places, exact.mpr ?_⟩
  refine Edit.allWellPlaced_singleton.mpr ?_
  show (Session.ofPath Session.twinAnchors ⟨4⟩ Settings.default).path.NearestIsLast _
  rw [Session.ofPath_path]
  decide +kernel

/-- To the right of two twins a new anchor goes between them. -/
theorem Edit.not_ascending_after_insert_right_of_twins :
    ¬∀ (path : Path Float) (ids : IdSupply) (settings : Settings Float)
        (edits : List (Edit Float)), path.Ascending → path.Pinned → 0 < path.domain →
      path.Distinct → path.IssuedBy ids → (∀ edit ∈ edits, edit.HasPlace) →
      ∀ n, ∃ reached,
        Edit.runAll (edits.take n) (Session.ofPath path ids settings) = .ok reached ∧
          reached.path.Ascending := by
  intro claim
  have place : (Edit.insert ⟨0.75, 0.5⟩ 0 : Edit Float).HasPlace := by
    show IsNumber (0.75 : Float)
    unfold IsNumber
    decide +kernel
  have all : Edit.AllAscending [Edit.insert ⟨0.75, 0.5⟩ 0]
      (Session.ofPath Session.twinAnchors ⟨4⟩ Settings.default) :=
    claim Session.twinAnchors ⟨4⟩ Settings.default [.insert ⟨0.75, 0.5⟩ 0] (by decide +kernel)
      (by decide +kernel) (by decide +kernel) (by decide) (by decide)
      (fun edit member => by rwa [List.mem_singleton.mp member])
  have ordered : (Session.ofPath Session.twinAnchors ⟨4⟩ Settings.default).Ordered :=
    Session.ordered_ofPath (by decide +kernel) (by decide +kernel) (by decide +kernel) (by decide)
      (by decide)
  have wellPlaced := Edit.allWellPlaced_singleton.mp
    ((Edit.allAscending_iff ordered fun edit member => by
      rwa [List.mem_singleton.mp member]).mp all)
  change (Session.ofPath Session.twinAnchors ⟨4⟩ Settings.default).path.NearestIsLast _ at wellPlaced
  rw [Session.ofPath_path] at wellPlaced
  revert wellPlaced
  decide +kernel

end Easing
