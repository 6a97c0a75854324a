/-
**Finished edits settle the session, smoothing apart.**

A release that ends a gesture and an insertion that finds a place compile the path whatever was
there before; a deletion compiles when it removed something. Smoothing, called on its own, compiles
nothing, so it leaves a settled session settled only when it leaves the snapshot as it was, which it
never does to a curved anchor.

* `Edit.Finishes`: the edits that are finished when they return.
* `Edit.atRest_runAll`: without smoothing a session is settled whenever no gesture is going on.
* `Session.toggleSmoothing_snapshot_ne`: flattening a curved anchor changes the snapshot.
* `Edit.isSettled_after_run_iff`: when a finished edit leaves the session settled.
-/
import Easing.Proofs.Path.Modify
import Easing.Proofs.Session.Coherence
import Easing.Proofs.Session.Order

set_option linter.unusedSectionVars false

namespace Easing

open Session

/-- A result that was mapped came from a result. -/
theorem exists_ok_of_map {ε β γ : Type} {attempt : Except ε β} {change : β → γ} {result : γ}
    (run : attempt.map change = .ok result) :
    ∃ first, attempt = .ok first ∧ change first = result := by
  cases attempt with
  | error fault => cases run
  | ok first => exact ⟨first, rfl, Except.ok.inj run⟩

/-- A result that depends on another one came from a result. -/
theorem exists_ok_of_bind {ε β γ : Type} {attempt : Except ε β} {next : β → Except ε γ} {result : γ}
    (run : attempt >>= next = .ok result) :
    ∃ first, attempt = .ok first ∧ next first = .ok result := by
  cases attempt with
  | error fault => cases run
  | ok first => exact ⟨first, rfl, run⟩

/-! ### Calls that settle -/

section Calls

variable {α : Type} [Scalar α] [Numeral α] {session : Session α}

/-- What is shown afterwards is no matter of settling. -/
theorem isSettled_shown (call : Call α) (session : Session α) :
    (call.shown session).isSettled = session.isSettled := by
  unfold Call.shown
  split <;> rfl

/-- A call that settles leaves the session settled. -/
theorem isSettled_finish (call : Call α) (edited : Session α) :
    (call.finish (edited, true)).isSettled = true := by
  unfold Call.finish
  rw [if_pos rfl, isSettled_shown, isSettled_settle]

/-- A settled session stays settled as long as its snapshot is the same. -/
theorem isSettled_iff_of_compiledFrom {edited : Session α} (settled : session.isSettled = true)
    (from? : edited.compiledFrom = session.compiledFrom) :
    edited.isSettled = true ↔ edited.path.snapshot = session.path.snapshot := by
  have here : session.compiledFrom = some session.path.snapshot := eq_of_beq settled
  unfold isSettled
  rw [from?, here, beq_iff_eq, Option.some.injEq]
  exact eq_comm

namespace Session

/-- Removing a list of anchors counts one at least, or changes nothing. -/
theorem foldl_removeAnchor_cases (ids : List SegmentId) (state : Session α × Nat) :
    ids.foldl removeAnchor state = state ∨ state.2 < (ids.foldl removeAnchor state).2 := by
  induction ids generalizing state with
  | nil => exact .inl rfl
  | cons id ids ih =>
    have one : removeAnchor state id = state ∨ state.2 < (removeAnchor state id).2 := by
      unfold removeAnchor
      split
      · exact .inr (Nat.lt_succ_self _)
      · exact .inl rfl
    rw [List.foldl_cons]
    rcases one with same | counted
    · rw [same]
      exact ih state
    · rcases ih (removeAnchor state id) with same | more
      · rw [same]
        exact .inr counted
      · exact .inr (Nat.lt_trans counted more)

/-- Smoothing compiles nothing. -/
theorem toggleSmoothing_compiledFrom {changed : Session α × Bool}
    (run : session.toggleSmoothing = .ok changed) :
    changed.1.compiledFrom = session.compiledFrom := by
  unfold toggleSmoothing at run
  dsimp only at run
  split at run
  · obtain ⟨path, -, rfl⟩ := exists_ok_of_map run
    rfl
  · obtain rfl := Except.ok.inj run
    exact (smoothed_foldl_flatten session _).keeps.compiledFrom

/-- Settled, or amid a gesture. -/
def AtRest (session : Session α) : Prop := session.isDown = true ∨ session.isSettled = true

end Session

namespace Edit

variable {edit : Edit α} {edited : Session α} {settles : Bool}

/-- The edits that are finished when they return, in a session that is settled or amid a gesture. A
release and an insertion that finds a place ask nothing of what was there before. -/
def Finishes (edit : Edit α) (session : Session α) : Prop :=
  match edit with
  | .insert _ _ => session.path.segments ≠ [] ∨ session.isSettled = true
  | .delete => session.isSettled = true
  | .smooth => session.isSettled = true
  | .release _ => session.isDown = true
  | .press _ => False
  | .drag _ => False

/-- An edit is made in two steps, of which the second settles or does nothing. -/
theorem edited_of_run (run : edit.run session = .ok edited) :
    ∃ between settles, edit.edited session = .ok (between, settles) ∧
      edited = (Call.edit edit).finish (between, settles) := by
  have steps : (edit.edited session).map (Call.edit edit).finish = .ok edited :=
    ((Call.edit edit).run_eq session).symm.trans run
  obtain ⟨⟨between, settles⟩, change, finish⟩ := exists_ok_of_map steps
  exact ⟨between, settles, change, finish.symm⟩

/-- An insertion that does not settle has found no place. -/
theorem edited_insert {point : Point α} {now : Nat}
    (run : (insert point now).edited session = .ok (edited, settles)) :
    settles = true ∨ edited = session ∧ session.path.segments = [] := by
  obtain ⟨x, -, result⟩ := exists_ok_of_map run
  unfold withInserted at result
  cases inserted : session.path.insert session.ids ⟨x, point.y⟩ with
  | ok placed =>
    rw [inserted] at result
    exact .inl (congrArg Prod.snd result).symm
  | error error =>
    rw [inserted] at result
    refine .inr ⟨(congrArg Prod.fst result).symm, ?_⟩
    unfold Path.insert at inserted
    split at inserted
    case h_1 none => exact none
    case h_2 => cases inserted

/-- A deletion that does not settle has removed nothing. -/
theorem edited_delete (run : (delete : Edit α).edited session = .ok (edited, settles)) :
    settles = true ∨ edited = session := by
  have result := Except.ok.inj run
  rcases foldl_removeAnchor_cases
    (session.selection.anchors.filter fun id => !session.path.isEndpoint id) (session, 0)
    with same | counted
  · rw [same] at result
    exact .inr (congrArg Prod.fst result).symm
  · refine .inl ((congrArg Prod.snd result).symm.trans ?_)
    exact decide_eq_true counted

/-- A release that ends a gesture settles; one that ends none does nothing. -/
theorem edited_release {event : PointerEvent α}
    (run : (release event).edited session = .ok (edited, settles)) :
    settles = true ∨ edited = session ∧ session.isDown = false := by
  simp only [Edit.edited] at run
  split at run
  case isTrue =>
    obtain ⟨lifted, -, result⟩ := exists_ok_of_map run
    exact .inl (congrArg Prod.snd result).symm
  case isFalse up =>
    exact .inr ⟨(congrArg Prod.fst (Except.ok.inj run)).symm, Bool.eq_false_iff.mpr up⟩

/-- **Finished edits settle**, all but smoothing: they settle themselves, or change nothing in a
session that is settled. -/
theorem settles_or_same (finishes : edit.Finishes session) (notSmooth : edit ≠ .smooth)
    (run : edit.edited session = .ok (edited, settles)) :
    settles = true ∨ edited = session ∧ session.isSettled = true := by
  cases edit with
  | insert point now =>
    exact (edited_insert run).imp_right fun ⟨same, isEmpty⟩ =>
      ⟨same, finishes.resolve_left fun nonempty => nonempty isEmpty⟩
  | delete => exact (edited_delete run).imp_right fun same => ⟨same, finishes⟩
  | smooth => exact absurd rfl notSmooth
  | press event => exact finishes.elim
  | drag event => exact finishes.elim
  | release event =>
    refine (edited_release run).imp_right fun ⟨_, up⟩ => ?_
    have down : session.isDown = true := finishes
    rw [up] at down
    cases down

/-! ### Runs -/

/-- Moving the selection neither begins nor ends a gesture. -/
theorem isDown_transform {event : PointerEvent α} (run : session.transform event = .ok edited) :
    edited.isDown = session.isDown := by
  cases pressed : session.press with
  | none =>
    unfold transform at run
    rw [pressed] at run
    exact congrArg Session.isDown (Except.ok.inj run).symm
  | some press =>
    rw [session.transform_eq event pressed] at run
    split at run
    · exact congrArg Session.isDown (Except.ok.inj run).symm
    · obtain ⟨path, -, rfl⟩ := exists_ok_of_map run
      rfl

/-- **Every edit but smoothing leaves a session at rest.** -/
theorem atRest_run (rests : session.AtRest) (notSmooth : edit ≠ .smooth)
    (run : edit.run session = .ok edited) : edited.AtRest := by
  obtain ⟨between, settles, change, rfl⟩ := edited_of_run run
  cases settles with
  | true => exact .inr (isSettled_finish _ _)
  | false =>
    show between.AtRest
    cases edit with
    | insert point now =>
      obtain ⟨rfl, -⟩ := (edited_insert change).resolve_left Bool.false_ne_true
      exact rests
    | delete =>
      obtain rfl := (edited_delete change).resolve_left Bool.false_ne_true
      exact rests
    | smooth => exact absurd rfl notSmooth
    | press event =>
      obtain rfl : session.pressDown event = between := congrArg Prod.fst (Except.ok.inj change)
      unfold pressDown
      split
      · exact .inl rfl
      · exact rests
    | drag event =>
      obtain ⟨dragged, moved, same⟩ := exists_ok_of_map change
      obtain rfl : dragged = between := congrArg Prod.fst same
      unfold Session.drag at moved
      split at moved
      case isTrue down =>
        obtain ⟨next, transformed, rfl⟩ := exists_ok_of_map moved
        exact .inl ((isDown_transform transformed).trans down)
      case isFalse =>
        obtain rfl := Except.ok.inj moved
        exact rests
    | release event =>
      obtain ⟨rfl, -⟩ := (edited_release change).resolve_left Bool.false_ne_true
      exact rests

/-- **Without smoothing a session is settled whenever no gesture is going on.** -/
theorem atRest_runAll {edits : List (Edit α)} (rests : session.AtRest) (notSmooth : .smooth ∉ edits)
    (run : runAll edits session = .ok edited) : edited.AtRest := by
  induction edits generalizing session with
  | nil =>
    obtain rfl := Except.ok.inj run
    exact rests
  | cons edit edits ih =>
    rw [List.mem_cons, not_or] at notSmooth
    obtain ⟨next, first, rest⟩ := exists_ok_of_bind run
    exact ih (atRest_run rests (Ne.symm notSmooth.1) first) notSmooth.2 rest

end Edit

end Calls

/-! ### Flattening -/

section Flattening

variable {α : Type} [Scalar α]

namespace Session

/-- Every selected anchor loses its handles. -/
theorem find?_foldl_flatten (ids : List SegmentId) (session : Session α) (id : SegmentId) :
    (ids.foldl flatten session).path.find? id =
      (session.path.find? id).map fun segment => if id ∈ ids then segment.flatten else segment := by
  induction ids generalizing session with
  | nil => simp
  | cons head rest ih =>
    have first : (session.flatten head).path.find? id =
        (session.path.find? id).map fun segment => if id = head then segment.flatten else segment :=
      Path.find?_modify session.path head id fun _ => rfl
    rw [List.foldl_cons, ih, first, Option.map_map]
    congr 1
    funext segment
    simp only [Function.comp_apply, List.mem_cons]
    by_cases here : id = head <;> by_cases later : id ∈ rest <;> simp [here, later, Segment.flatten]

/-- A selected anchor with a handle. -/
theorem exists_curved {session : Session α} (curved : session.onlyLinear = false) :
    ∃ id ∈ session.selection.anchors, ∃ segment, session.path.find? id = some segment ∧
      segment.isLinear = false := by
  unfold onlyLinear at curved
  rw [List.all_eq_false] at curved
  obtain ⟨segment, member, notLinear⟩ := curved
  obtain ⟨id, selected, found⟩ := List.mem_filterMap.mp member
  exact ⟨id, selected, segment, found, Bool.eq_false_iff.mpr notLinear⟩

end Session

end Flattening

/-! ### Smoothing doubles -/

/-- Without handles a segment is finite when it was. -/
theorem Segment.isFinite_flatten {segment : Segment Float} (finite : segment.toKnot.IsFinite) :
    segment.flatten.toKnot.IsFinite := by
  have zero : Scalar.isFinite (0 : Float) = true := by decide +kernel
  exact ⟨finite.x, finite.y, zero, zero, zero, zero⟩

namespace Session

theorem isFinite_foldl_flatten (ids : List SegmentId) {session : Session Float}
    (finite : session.path.IsFinite) : (ids.foldl flatten session).path.IsFinite := by
  induction ids generalizing session with
  | nil => exact finite
  | cons id ids ih =>
    refine ih fun knot member => ?_
    obtain ⟨segment, inside, rfl⟩ := List.mem_map.mp member
    have known : ∀ other ∈ session.path.segments, other.toKnot.IsFinite := fun other inside =>
      finite _ (List.mem_map_of_mem inside)
    have changed : segment ∈ (session.path.modify id Segment.flatten).segments := inside
    rcases Path.mem_modify changed with same | ⟨before, found, rfl⟩
    · exact known segment same
    · exact Segment.isFinite_flatten (known before (Path.find?_eq_some found).1)

/-- **Flattening a curved anchor changes the snapshot.** -/
theorem toggleSmoothing_snapshot_ne {session : Session Float} {changed : Session Float × Bool}
    (finite : session.path.IsFinite) (curved : session.onlyLinear = false)
    (run : session.toggleSmoothing = .ok changed) :
    changed.1.path.snapshot ≠ session.path.snapshot := by
  intro same
  obtain ⟨id, selected, segment, found, notLinear⟩ := exists_curved curved
  have flat : changed.1 = session.selection.anchors.foldl flatten session := by
    unfold toggleSmoothing at run
    rw [curved] at run
    exact (congrArg Prod.fst (Except.ok.inj run)).symm
  rw [flat] at same
  have knots := Path.knots_eq_of_snapshot (isFinite_foldl_flatten _ finite) finite same
  have ids := (smoothed_foldl_flatten session session.selection.anchors).anchors.ids
  have after := find?_foldl_flatten session.selection.anchors session id
  unfold Path.find? at after
  rw [Path.segments_eq_of_knots knots ids] at after
  rw [show session.path.segments.find? _ = some segment from found, Option.map_some,
    if_pos selected, Option.some.injEq] at after
  rw [after] at notLinear
  revert notLinear
  have noHandle : (Vec.zero : Vec Float).isZero = true := by decide +kernel
  show ¬((Vec.zero : Vec Float).isZero && (Vec.zero : Vec Float).isZero) = false
  rw [noHandle]
  decide

end Session

/-- **When a finished edit leaves a session settled**: always, unless it is a smoothing that changes
the snapshot of the path. A smoothing that finds a curved anchor changes it. -/
theorem Edit.isSettled_after_run_iff (edit : Edit Float) (session : Session Float)
    (finishes : edit.Finishes session) :
    (0 ≤ session.path.domain → ∃ edited, edit.run session = .ok edited) ∧
      ∀ edited, edit.run session = .ok edited →
        (edited.isSettled = true ↔
          (edit = .smooth → edited.path.snapshot = session.path.snapshot)) ∧
        (edit = .smooth → session.path.IsFinite → session.onlyLinear = false →
          edited.isSettled = false) := by
  constructor
  · intro width
    obtain ⟨between, settles, change, -⟩ := edit.edited_ok width
    have steps := (Call.edit edit).run_eq session
    refine ⟨(Call.edit edit).finish (between, settles), steps.trans ?_⟩
    show (edit.edited session).map _ = _
    rw [change]
    rfl
  · intro edited run
    by_cases isSmooth : edit = .smooth
    · subst isSmooth
      obtain ⟨changed, toggled, rfl⟩ := exists_ok_of_map run
      have settled := isSettled_iff_of_compiledFrom finishes (toggleSmoothing_compiledFrom toggled)
      refine ⟨settled.trans ⟨fun same _ => same, fun same => same rfl⟩, fun _ finite curved => ?_⟩
      rw [Bool.eq_false_iff, ne_eq, settled]
      exact toggleSmoothing_snapshot_ne finite curved toggled
    · refine ⟨iff_of_true ?_ fun smooth => absurd smooth isSmooth,
        fun smooth => absurd smooth isSmooth⟩
      obtain ⟨between, settles, change, rfl⟩ := edited_of_run run
      rcases settles_or_same finishes isSmooth change with rfl | ⟨rfl, settled⟩
      · exact isSettled_finish _ _
      · cases settles with
        | true => exact isSettled_finish _ _
        | false => exact settled

/-- A path that leaves its first anchor along a handle. -/
def curvedStart : Path Float :=
  ⟨[⟨⟨⟨0, 0⟩, Vec.zero, ⟨0.25, 0⟩⟩, ⟨0⟩⟩, ⟨Knot.corner ⟨1, 1⟩, ⟨1⟩⟩], 1⟩

namespace Session

/-- A session with something else selected. -/
def withSelection {α : Type} [Scalar α] (session : Session α) (selection : Selection α) :
    Session α := { session with selection }

/-- A new session on the curved path, with its first anchor selected. -/
def curvedSelected : Session Float :=
  (ofPath curvedStart ⟨2⟩ Settings.default).withSelection (Selection.only (Item.anchor ⟨0⟩) 0)

theorem curvedSelected_path : curvedSelected.path = curvedStart := by
  have same : ∀ (session : Session Float) selection,
      (session.withSelection selection).path = session.path := fun _ _ => rfl
  unfold curvedSelected
  rw [same, ofPath_path]

theorem isSettled_curvedSelected : curvedSelected.isSettled = true := by
  have same : ∀ (session : Session Float) selection,
      (session.withSelection selection).isSettled = session.isSettled := fun _ _ => rfl
  unfold curvedSelected ofPath
  rw [same, isSettled_settle]

theorem curvedSelected_width : 0 ≤ curvedSelected.path.domain := by
  rw [curvedSelected_path]
  decide +kernel

theorem curvedSelected_isFinite : curvedSelected.path.IsFinite := by
  rw [curvedSelected_path]
  decide +kernel

theorem curvedSelected_curved : curvedSelected.onlyLinear = false := by
  unfold onlyLinear
  rw [curvedSelected_path]
  decide +kernel

end Session

/-- The curved anchor is flattened, and the session is not settled. -/
theorem Edit.isSettled_after_flatten :
    Edit.smooth.Finishes curvedSelected ∧ 0 ≤ curvedSelected.path.domain ∧
      curvedSelected.path.IsFinite ∧ curvedSelected.onlyLinear = false ∧
      ∃ edited, Edit.smooth.run curvedSelected = .ok edited ∧ edited.isSettled = false := by
  obtain ⟨total, after⟩ := isSettled_after_run_iff .smooth curvedSelected isSettled_curvedSelected
  obtain ⟨edited, run⟩ := total curvedSelected_width
  exact ⟨isSettled_curvedSelected, curvedSelected_width, curvedSelected_isFinite,
    curvedSelected_curved, edited, run,
    (after edited run).2 rfl curvedSelected_isFinite curvedSelected_curved⟩

/-- **Smoothing does not settle**: the path without the handle is not compiled. -/
theorem Edit.not_isSettled_after_smooth : ¬∀ (edit : Edit Float) (session edited : Session Float),
    edit.Finishes session → edit.run session = .ok edited → edited.isSettled = true := by
  intro settles
  obtain ⟨changed, run, -⟩ := toggleSmoothing_ok curvedSelected_width
  have smooths : Edit.smooth.run curvedSelected = .ok changed.1 := by
    show curvedSelected.toggleSmoothing.map (·.1) = _
    rw [run]
    rfl
  have settled := settles .smooth curvedSelected changed.1 isSettled_curvedSelected smooths
  rw [isSettled_iff_of_compiledFrom isSettled_curvedSelected (toggleSmoothing_compiledFrom run)]
    at settled
  exact toggleSmoothing_snapshot_ne curvedSelected_isFinite curvedSelected_curved run settled

end Easing
