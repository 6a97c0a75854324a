/-
**Runs of a session.**

A host calls the methods of a session in any order. Every call edits the session, and some of them
settle it afterwards: `Call.edited` is the state in between, `Call.run_eq` says how it goes on.

* `Edit`, `Call`: the methods with their arguments.
* `Session.settle_frame`: what settling leaves alone.
* `Call.edited_ok`: in a domain that is an interval no call fails.
-/
import Easing.Session.Gesture
import Easing.Proofs.Session.Smoothing

set_option linter.unusedSectionVars false

namespace Easing

/-- The methods that edit the path, and those of a gesture. -/
inductive Edit (α : Type) where
  | insert (point : Point α) (now : Nat)
  | delete
  | smooth
  | press (event : PointerEvent α)
  | drag (event : PointerEvent α)
  | release (event : PointerEvent α)

/-- All methods of a session. -/
inductive Call (α : Type) where
  | edit (change : Edit α)
  | setOptions (options : CompileOptions)
  | freeze
  | transform (event : PointerEvent α)
  | hover (position : Point α) (modifiers : Modifiers)
  | settle

namespace Session

variable {α : Type} [Scalar α]

/-! ### Dragging -/

/-- The point that an item is dragged to. -/
def dragTarget (session : Session α) (press event : PointerEvent α) (frozen : Point α) : Point α :=
  let moved := frozen + (event.position - press.position)
  if event.modifiers.snapsToGrid then
    snapToGrid session.path.domain session.settings.snapCells moved
  else moved

/-- The items are moved one after another, each to its target. -/
theorem transform_eq (session : Session α) {press : PointerEvent α} (event : PointerEvent α)
    (pressed : session.press = some press) :
    session.transform event =
      if session.selection.isEmpty then .ok session
      else
        ((moves session.selection).foldlM (fun path move =>
          moveItem session.selection event.modifiers.editsExclusively path move.1
            (session.dragTarget press event move.2)) session.path).map fun path =>
        { session with path, grid := if event.modifiers.snapsToGrid then .fine else .coarse } := by
  unfold transform
  rw [pressed]
  dsimp only
  split
  · rfl
  · show Except.bind ((moves session.selection).foldlM (fun path move =>
        moveItem session.selection event.modifiers.editsExclusively path move.1
          (session.dragTarget press event move.2)) session.path) _ = _
    generalize List.foldlM (m := Except DomainFault) _ session.path _ = moved
    cases moved with
    | error fault => rfl
    | ok path =>
      show Except.ok _ = Except.ok _
      rw [← pressed]

variable [Numeral α]

/-! ### What settling leaves alone -/

/-- Everything but the compiled function and what belongs to it. -/
theorem recompile_frame (session : Session α) :
    session.recompile =
      { session with
        pool := session.recompile.pool
        compiled := session.recompile.compiled
        compiledFrom := session.recompile.compiledFrom
        hasError := session.recompile.hasError } := by
  unfold recompile
  split
  split <;> rfl

theorem settle_frame (session : Session α) :
    session.settle =
      { session with
        pool := session.settle.pool
        compiled := session.settle.compiled
        compiledFrom := session.settle.compiledFrom
        hasError := session.settle.hasError } := by
  unfold settle
  split
  · rfl
  · exact session.recompile_frame

@[simp] theorem settle_path (session : Session α) : session.settle.path = session.path := by
  rw [settle_frame]

@[simp] theorem settle_ids (session : Session α) : session.settle.ids = session.ids := by
  rw [settle_frame]

@[simp] theorem settle_selection (session : Session α) :
    session.settle.selection = session.selection := by
  rw [settle_frame]

@[simp] theorem settle_isDown (session : Session α) : session.settle.isDown = session.isDown := by
  rw [settle_frame]

theorem setOptions_path (session : Session α) (options : CompileOptions) :
    (session.setOptions options).path = session.path := by
  unfold setOptions
  split
  · rfl
  · rw [settle_path]

@[simp] theorem ofPath_path (path : Path α) (ids : IdSupply) (settings : Settings α) :
    (ofPath path ids settings).path = path := settle_path _

@[simp] theorem ofPath_ids (path : Path α) (ids : IdSupply) (settings : Settings α) :
    (ofPath path ids settings).ids = ids := settle_ids _

@[simp] theorem ofPath_isDown (path : Path α) (ids : IdSupply) (settings : Settings α) :
    (ofPath path ids settings).isDown = false := settle_isDown _

/-! ### Ending a gesture -/

/-- The end of a gesture: what a click changes, before it is settled. -/
def lift (session : Session α) (event : PointerEvent α) : Except DomainFault (Session α) :=
  if isClick { session with isDown := false } event then
    click { session with isDown := false } event
  else .ok { session with isDown := false }

/-- A release lifts the pointer, settles and shows the cursor. -/
theorem release_eq (session : Session α) (event : PointerEvent α) :
    session.release event =
      if session.isDown then
        (session.lift event).map fun lifted =>
          ((settle { lifted with grid := .coarse }).hover event.position event.modifiers,
            isClick { session with isDown := false } event)
      else .ok (session, false) := by
  unfold release lift
  cases session.isDown with
  | false => rfl
  | true =>
    rw [if_pos rfl, if_pos rfl]
    dsimp only
    cases isClick { session with isDown := false } event with
    | false => rfl
    | true =>
      rw [if_pos rfl, if_pos rfl]
      cases click { session with isDown := false } event <;> rfl

end Session

/-! ### Calls -/

variable {α : Type} [Scalar α] [Numeral α]

/-- Calls a method. A point that cannot be inserted changes nothing. -/
def Edit.run (edit : Edit α) (session : Session α) : Except DomainFault (Session α) :=
  match edit with
  | .insert point now =>
    (session.insertPoint point now).map fun
      | .ok (_, session) => session
      | .error _ => session
  | .delete => .ok session.deleteSelection.1
  | .smooth => session.toggleSmoothing.map (·.1)
  | .press event => .ok (session.pressDown event)
  | .drag event => session.drag event
  | .release event => (session.release event).map (·.1)

/-- Calls a method. -/
def Call.run (call : Call α) (session : Session α) : Except DomainFault (Session α) :=
  match call with
  | .edit change => change.run session
  | .setOptions options => .ok (session.setOptions options)
  | .freeze => .ok session.freezeSelection
  | .transform event => session.transform event
  | .hover position modifiers => .ok (session.hover position modifiers)
  | .settle => .ok session.settle

/-- Calls methods one after another. -/
def Edit.runAll (edits : List (Edit α)) (session : Session α) : Except DomainFault (Session α) :=
  edits.foldlM (fun session edit => edit.run session) session

/-! ### What a call does before it settles -/

/-- The session after an insertion, when the path takes the point. -/
def Session.withInserted (session : Session α) (point : Point α) (now : Nat) : Session α × Bool :=
  match session.path.insert session.ids point with
  | .ok (id, path, ids) =>
    ({ session with path, ids, selection := Selection.only (Item.anchor id) now }, true)
  | .error _ => (session, false)

/-- The session after a method edited it, and whether it is to be settled. -/
def Edit.edited (edit : Edit α) (session : Session α) :
    Except DomainFault (Session α × Bool) :=
  match edit with
  | .insert point now =>
    (clampToDomain session.path.domain point.x).map fun x => session.withInserted ⟨x, point.y⟩ now
  | .delete =>
    let doomed := session.selection.anchors.filter fun id => !session.path.isEndpoint id
    let thinned := doomed.foldl Session.removeAnchor (session, 0)
    .ok (thinned.1, 0 < thinned.2)
  | .smooth => session.toggleSmoothing.map fun toggled => (toggled.1, false)
  | .press event => .ok (session.pressDown event, false)
  | .drag event => (session.drag event).map fun dragged => (dragged, false)
  | .release event =>
    if session.isDown then
      (session.lift event).map fun lifted => ({ lifted with grid := .coarse }, true)
    else .ok (session, false)

/-- The session after a method edited it, and whether it is to be settled. -/
def Call.edited (call : Call α) (session : Session α) :
    Except DomainFault (Session α × Bool) :=
  match call with
  | .edit change => change.edited session
  | .setOptions options =>
    if session.settings.compile = options then .ok (session, false)
    else
      .ok ({ session with
        settings := { session.settings with compile := options }
        compiledFrom := none }, true)
  | .freeze => .ok (session.freezeSelection, false)
  | .transform event => (session.transform event).map fun moved => (moved, false)
  | .hover position modifiers => .ok (session.hover position modifiers, false)
  | .settle => .ok (session, true)

/-- What an insertion edits, when the path takes the point. -/
theorem Edit.edited_insert_of_ok {session : Session α} {point : Point α} {x : α} {id : SegmentId}
    {path : Path α} {ids : IdSupply} (now : Nat)
    (clamped : clampToDomain session.path.domain point.x = .ok x)
    (inserted : session.path.insert session.ids ⟨x, point.y⟩ = .ok (id, path, ids)) :
    (Edit.insert point now).edited session = .ok
      ({ session with path, ids, selection := Selection.only (Item.anchor id) now }, true) := by
  show (clampToDomain session.path.domain point.x).map _ = _
  rw [clamped]
  simp only [Except.map, Session.withInserted, inserted]

/-- What is shown after a call has settled the session. -/
def Call.shown (call : Call α) (session : Session α) : Session α :=
  match call with
  | .edit (.release event) => session.hover event.position event.modifiers
  | _ => session

/-- The end of a call. -/
def Call.finish (call : Call α) (edited : Session α × Bool) : Session α :=
  if edited.2 then call.shown edited.1.settle else edited.1

/-- **A call edits the session, and settles it when it is to be settled.** -/
theorem Call.run_eq (call : Call α) (session : Session α) :
    call.run session = (call.edited session).map call.finish := by
  cases call with
  | setOptions options =>
    simp only [Call.run, Call.edited]
    unfold Session.setOptions
    split <;> rfl
  | freeze => rfl
  | transform event =>
    show session.transform event = ((session.transform event).map _).map _
    cases session.transform event <;> rfl
  | hover position modifiers => rfl
  | settle => rfl
  | edit change =>
    cases change with
    | insert point now =>
      simp only [Call.run, Call.edited, Edit.run, Edit.edited, Session.insertPoint]
      cases clampToDomain session.path.domain point.x with
      | error fault => rfl
      | ok x =>
        simp only [Except.map, Session.withInserted]
        cases session.path.insert session.ids ⟨x, point.y⟩ <;> rfl
    | delete =>
      simp only [Call.run, Call.edited, Edit.run, Edit.edited, Session.deleteSelection]
      generalize List.foldl Session.removeAnchor (session, 0) _ = thinned
      by_cases some : 0 < thinned.2 <;> simp [Except.map, Call.finish, Call.shown, some]
    | smooth =>
      show session.toggleSmoothing.map _ = (session.toggleSmoothing.map _).map _
      cases session.toggleSmoothing <;> rfl
    | press event => rfl
    | drag event =>
      show session.drag event = ((session.drag event).map _).map _
      cases session.drag event <;> rfl
    | release event =>
      show (session.release event).map (·.1) = (Edit.edited (.release event) session).map _
      rw [Session.release_eq]
      simp only [Edit.edited]
      split
      · cases session.lift event <;> rfl
      · rfl

/-! ### No call fails -/

namespace Session

/-- Nothing that belongs to compiling has changed. -/
structure Keeps (session edited : Session α) : Prop where
  domain : edited.path.domain = session.path.domain
  settings : edited.settings = session.settings
  pool : edited.pool = session.pool
  compiled : edited.compiled = session.compiled
  compiledFrom : edited.compiledFrom = session.compiledFrom
  hasError : edited.hasError = session.hasError

theorem Keeps.refl (session : Session α) : Keeps session session := ⟨rfl, rfl, rfl, rfl, rfl, rfl⟩

theorem Keeps.trans {session edited last : Session α} (first : Keeps session edited)
    (second : Keeps edited last) : Keeps session last :=
  ⟨second.domain.trans first.domain, second.settings.trans first.settings,
    second.pool.trans first.pool, second.compiled.trans first.compiled,
    second.compiledFrom.trans first.compiledFrom, second.hasError.trans first.hasError⟩

theorem Smoothed.keeps {session changed : Session α} (smoothed : Smoothed session changed) :
    Keeps session changed := by
  obtain ⟨anchors, keep, rest⟩ := smoothed
  rw [rest]
  exact ⟨anchors.domain, rfl, rfl, rfl, rfl, rfl⟩

theorem removeAnchor_keeps (state : Session α × Nat) (id : SegmentId) :
    Keeps state.1 (removeAnchor state id).1 := by
  unfold removeAnchor
  cases removed : state.1.path.remove? id with
  | none => exact Keeps.refl _
  | some path =>
    refine ⟨?_, rfl, rfl, rfl, rfl, rfl⟩
    unfold Path.remove? at removed
    split at removed
    · cases removed
    · obtain ⟨index, -, rfl⟩ := Option.map_eq_some_iff.mp removed
      rfl

theorem foldl_removeAnchor_keeps (ids : List SegmentId) (state : Session α × Nat) :
    Keeps state.1 (ids.foldl removeAnchor state).1 := by
  induction ids generalizing state with
  | nil => exact Keeps.refl _
  | cons id ids ih => exact (removeAnchor_keeps state id).trans (ih _)

theorem pressDown_keeps (session : Session α) (event : PointerEvent α) :
    Keeps session (session.pressDown event) := by
  unfold pressDown
  split
  · exact ⟨rfl, rfl, rfl, rfl, rfl, rfl⟩
  · exact Keeps.refl _

theorem withInserted_keeps (session : Session α) (point : Point α) (now : Nat) :
    Keeps session (session.withInserted point now).1 := by
  unfold withInserted
  cases inserted : session.path.insert session.ids point with
  | error error => exact Keeps.refl _
  | ok result =>
    refine ⟨?_, rfl, rfl, rfl, rfl, rfl⟩
    unfold Path.insert at inserted
    split at inserted
    · cases inserted
    · obtain rfl := Except.ok.inj inserted
      rfl

theorem moveItem_ok {path : Path α} (width : 0 ≤ path.domain) (selection : Selection α)
    (paired : Bool) (item : Item) (target : Point α) :
    ∃ other, moveItem selection paired path item target = .ok other ∧
      other.domain = path.domain := by
  unfold moveItem
  split
  · exact ⟨path, rfl, rfl⟩
  · split
    · obtain ⟨changed, dragged, -⟩ := dragHandle_ok width _ _ target paired
      rw [dragged]
      exact ⟨_, rfl, rfl⟩
    · exact ⟨_, rfl, rfl⟩

theorem foldlM_moveItem_ok {path : Path α} (width : 0 ≤ path.domain) (selection : Selection α)
    (paired : Bool) (target : Point α → Point α) (moves : List (Item × Point α)) :
    ∃ last, moves.foldlM (fun path move => moveItem selection paired path move.1 (target move.2))
        path = .ok last ∧ last.domain = path.domain := by
  induction moves generalizing path with
  | nil => exact ⟨path, rfl, rfl⟩
  | cons move moves ih =>
    obtain ⟨next, moved, same⟩ := moveItem_ok width selection paired move.1 (target move.2)
    obtain ⟨last, run, same'⟩ := ih (by rwa [same])
    refine ⟨last, ?_, same'.trans same⟩
    rw [List.foldlM_cons, moved]
    exact run

theorem transform_ok {session : Session α} (width : 0 ≤ session.path.domain)
    (event : PointerEvent α) :
    ∃ moved, session.transform event = .ok moved ∧ Keeps session moved := by
  cases pressed : session.press with
  | none =>
    refine ⟨session, ?_, Keeps.refl session⟩
    unfold transform
    rw [pressed]
    rfl
  | some press =>
    rw [session.transform_eq event pressed]
    split
    · exact ⟨session, rfl, Keeps.refl session⟩
    · obtain ⟨path, run, domain⟩ := foldlM_moveItem_ok width session.selection
        event.modifiers.editsExclusively (session.dragTarget press event) (moves session.selection)
      rw [run]
      exact ⟨_, rfl, domain, rfl, rfl, rfl, rfl, rfl⟩

theorem drag_ok {session : Session α} (width : 0 ≤ session.path.domain) (event : PointerEvent α) :
    ∃ dragged, session.drag event = .ok dragged ∧ Keeps session dragged := by
  unfold drag
  split
  · obtain ⟨moved, run, keeps⟩ := transform_ok width event
    rw [run]
    exact ⟨_, rfl, keeps.trans ⟨rfl, rfl, rfl, rfl, rfl, rfl⟩⟩
  · exact ⟨session, rfl, Keeps.refl session⟩

theorem lift_ok {session : Session α} (width : 0 ≤ session.path.domain) (event : PointerEvent α) :
    ∃ lifted, session.lift event = .ok lifted ∧ Keeps session lifted := by
  unfold lift click
  split
  · dsimp only
    split
    · let selected : Session α := { session with
        isDown := false
        selection := selectOnClick { session with isDown := false } event }
      have keeps : Keeps session selected := ⟨rfl, rfl, rfl, rfl, rfl, rfl⟩
      have width' : 0 ≤ selected.path.domain := width
      obtain ⟨changed, run, smoothed⟩ := toggleSmoothing_ok width'
      exact ⟨changed.1, by rw [run]; rfl, keeps.trans smoothed.keeps⟩
    · exact ⟨_, rfl, rfl, rfl, rfl, rfl, rfl, rfl⟩
  · exact ⟨_, rfl, rfl, rfl, rfl, rfl, rfl, rfl⟩

end Session

open Session

/-- What is shown afterwards is no matter of compiling. -/
theorem Call.shown_keeps (call : Call α) (session : Session α) :
    Keeps session (call.shown session) := by
  unfold Call.shown
  split <;> exact ⟨rfl, rfl, rfl, rfl, rfl, rfl⟩

theorem Call.shown_path (call : Call α) (session : Session α) :
    (call.shown session).path = session.path := by
  unfold Call.shown
  split <;> rfl

theorem Edit.edited_ok {session : Session α} (width : 0 ≤ session.path.domain) (edit : Edit α) :
    ∃ edited settles, edit.edited session = .ok (edited, settles) ∧ Keeps session edited := by
  cases edit with
  | insert point now =>
    simp only [Edit.edited]
    rw [clampToDomain_ok width]
    exact ⟨_, _, rfl, withInserted_keeps _ _ _⟩
  | delete => exact ⟨_, _, rfl, foldl_removeAnchor_keeps _ (session, 0)⟩
  | smooth =>
    obtain ⟨changed, run, smoothed⟩ := toggleSmoothing_ok width
    simp only [Edit.edited]
    rw [run]
    exact ⟨_, _, rfl, smoothed.keeps⟩
  | press event => exact ⟨_, _, rfl, pressDown_keeps session event⟩
  | drag event =>
    obtain ⟨dragged, run, keeps⟩ := drag_ok width event
    simp only [Edit.edited]
    rw [run]
    exact ⟨_, _, rfl, keeps⟩
  | release event =>
    simp only [Edit.edited]
    split
    · obtain ⟨lifted, run, keeps⟩ := lift_ok width event
      rw [run]
      exact ⟨_, _, rfl, keeps.trans ⟨rfl, rfl, rfl, rfl, rfl, rfl⟩⟩
    · exact ⟨_, _, rfl, Keeps.refl session⟩

/-- The session has not been compiled since its options changed. -/
def Session.Reset (session edited : Session α) : Prop :=
  ∃ options, edited = { session with
    settings := { session.settings with compile := options }
    compiledFrom := none }

/-- **In a domain that is an interval no call fails.** What is compiled stays until the call
settles; new options are settled at once. -/
theorem Call.edited_ok {session : Session α} (width : 0 ≤ session.path.domain) (call : Call α) :
    ∃ edited settles, call.edited session = .ok (edited, settles) ∧
      (Keeps session edited ∨ Reset session edited ∧ settles = true) := by
  cases call with
  | edit change =>
    obtain ⟨edited, settles, run, keeps⟩ := change.edited_ok width
    exact ⟨edited, settles, run, Or.inl keeps⟩
  | setOptions options =>
    simp only [Call.edited]
    split
    · exact ⟨_, _, rfl, Or.inl (Keeps.refl session)⟩
    · exact ⟨_, _, rfl, Or.inr ⟨⟨options, rfl⟩, rfl⟩⟩
  | freeze => exact ⟨_, _, rfl, Or.inl ⟨rfl, rfl, rfl, rfl, rfl, rfl⟩⟩
  | transform event =>
    obtain ⟨moved, run, keeps⟩ := transform_ok width event
    simp only [Call.edited]
    rw [run]
    exact ⟨_, _, rfl, Or.inl keeps⟩
  | hover position modifiers => exact ⟨_, _, rfl, Or.inl ⟨rfl, rfl, rfl, rfl, rfl, rfl⟩⟩
  | settle => exact ⟨_, _, rfl, Or.inl (Keeps.refl session)⟩

end Easing
