/-
**A shift-click toggles what it hits.**

The press selects what it hits, and what was selected already keeps its time. The release finds the
same item, since the path is the same, and takes it out again unless it was added within the
debounce of the click. What the press itself added is that young, for the release is a click.

* `Selection.Stamped`: an item is selected since a time, or is not selected.
* `Session.addedAt?_pressDown`, `Session.addedAt?_selectOnClick`: what press and release do.
* `Session.shiftClick_toggles`: what a shift-click does to a session.
-/
import Easing.Proofs.Selection
import Easing.Proofs.Session.Dragging

set_option linter.unusedSectionVars false

namespace Easing

/-! ### Times in a selection -/

namespace Selection

variable {α : Type} {s : Selection α} {item : Item}

/-- An item is selected since a time, or is not selected. -/
def Stamped (s : Selection α) (item : Item) (time? : Option Nat) : Prop :=
  s.contains item = time?.isSome ∧ s.addedAt? item = time?

theorem stamped_iff {time? : Option Nat} : s.Stamped item time? ↔ s.addedAt? item = time? := by
  unfold Stamped
  rw [contains_eq_isSome, and_iff_right_iff_imp]
  exact congrArg Option.isSome

end Selection

namespace Session

open Selection

variable {α : Type} [Scalar α] {session : Session α} {press release : PointerEvent α}

/-! ### Press and release with shift -/

/-- Finding what lies under the pointer takes the path and the settings alone. -/
theorem hitTest_congr {other : Session α} (path : other.path = session.path)
    (settings : other.settings = session.settings) (position : Point α) :
    other.hitTest position = session.hitTest position := by
  unfold hitTest
  rw [path, settings]

/-- A press with shift adds what it hits. -/
theorem addedAt?_pressDown (session : Session α) (left : press.button = some .left)
    (shift : press.modifiers.shift = true)
    (noAlt : press.modifiers.alt = false) (item : Item) :
    (session.pressDown press).selection.addedAt? item =
      if (session.hitTest press.position).map (·.item) = some item then
        some ((session.selection.addedAt? item).getD press.time)
      else session.selection.addedAt? item := by
  unfold pressDown
  rw [if_pos left]
  show ((selectOnPress session.selection ((session.hitTest press.position).map (·.item))
    press).freeze session.pointOf?).addedAt? item = _
  rw [addedAt?_freeze]
  unfold selectOnPress Modifiers.addsToSelection Modifiers.editsExclusively
  cases (session.hitTest press.position).map (·.item) with
  | none =>
    rw [shift]
    rfl
  | some hit =>
    rw [shift, noAlt]
    simp only [Bool.false_eq_true, if_false, if_true, addedAt?_insert, Option.some.injEq]
    by_cases same : item = hit
    · rw [if_pos same, if_pos same.symm, same]
    · rw [if_neg same, if_neg (Ne.symm same)]

/-- A click with shift takes out what it hits, unless that is recent, or adds it. -/
theorem addedAt?_selectOnClick (session : Session α) (shift : release.modifiers.shift = true)
    (item : Item) :
    (session.selectOnClick release).addedAt? item =
      if (session.hitTest release.position).map (·.item) = some item then
        match session.selection.addedAt? item with
        | none => some release.time
        | some added =>
          if release.time - added < session.settings.clickDebounce then some added else none
      else session.selection.addedAt? item := by
  unfold selectOnClick Modifiers.addsToSelection
  rw [if_pos shift]
  cases found : session.hitTest release.position with
  | none => rfl
  | some hit =>
    simp only [Option.map_some, Option.some.injEq]
    by_cases same : hit.item = item
    · rw [if_pos same, same]
      unfold isRecent
      cases added : session.selection.addedAt? item with
      | none =>
        have absent : session.selection.contains item = false := by
          rw [contains_eq_isSome, added]
          rfl
        simp [addedAt?_toggle, absent]
      | some time =>
        have present : session.selection.contains item = true := by
          rw [contains_eq_isSome, added]
          rfl
        by_cases recent : release.time - time < session.settings.clickDebounce
        · simp [recent, added]
        · simp [recent, addedAt?_toggle, present]
    · rw [if_neg same]
      split
      · rfl
      · rw [addedAt?_toggle, if_neg (Ne.symm same)]

/-- A click comes soon after its press. -/
theorem elapsed_of_isClick (isPress : session.press = some press)
    (click : session.isClick release = true) :
    release.time - press.time < session.settings.clickDebounce := by
  unfold isClick at click
  rw [isPress] at click
  exact of_decide_eq_true (Bool.and_eq_true_iff.mp click).1

variable [Numeral α]

/-- A click without alt leaves the path as it is and changes the selection as a click does. -/
theorem release_click (down : session.isDown = true) (noAlt : release.modifiers.alt = false)
    (click : session.isClick release = true) :
    ∃ released, session.release release = .ok (released, true) ∧ released.path = session.path ∧
      released.selection = session.selectOnClick release := by
  have isClick : isClick { session with isDown := false } release = true := click
  have lifted : session.lift release =
      .ok { session with isDown := false, selection := session.selectOnClick release } := by
    unfold lift Session.click Modifiers.editsExclusively
    rw [isClick, if_pos rfl, noAlt]
    rfl
  rw [release_eq, if_pos down, lifted, isClick]
  exact ⟨_, rfl, settle_path _, settle_selection _⟩

/-- **A shift-click toggles what it hits and never undoes its own press.** What was not selected is
selected since the press. What was selected keeps its time when it was added within the debounce
before the release, and is taken out otherwise. Nothing else in the selection changes, and nothing
in the path. -/
theorem shiftClick_toggles (session : Session α) (press release : PointerEvent α)
    (left : press.button = some .left) (shift : press.modifiers.shift = true)
    (noAlt : press.modifiers.alt = false) (position : release.position = press.position)
    (modifiers : release.modifiers = press.modifiers)
    (click : (session.pressDown press).isClick release = true) :
    ∃ released, (session.pressDown press).release release = .ok (released, true) ∧
      released.path = session.path ∧
      match (session.hitTest press.position).map (·.item) with
      | none => ∀ item, released.selection.Stamped item (session.selection.addedAt? item)
      | some hit =>
        released.selection.Stamped hit
          (match session.selection.addedAt? hit with
          | none => some press.time
          | some added =>
            if release.time - added < session.settings.clickDebounce then some added else none) ∧
        ∀ item, item ≠ hit → released.selection.Stamped item (session.selection.addedAt? item) := by
  obtain ⟨_, _, form⟩ := session.pressDown_eq left
  have path : (session.pressDown press).path = session.path := by rw [form]
  have settings : (session.pressDown press).settings = session.settings := by rw [form]
  have isPress : (session.pressDown press).press = some press := by rw [form]
  have down : (session.pressDown press).isDown = true := by rw [form]
  have inTime : release.time - press.time < session.settings.clickDebounce := by
    rw [← settings]
    exact elapsed_of_isClick isPress click
  obtain ⟨released, run, samePath, selection⟩ := release_click down (by rwa [modifiers]) click
  have hits : (session.pressDown press).hitTest release.position = session.hitTest press.position := by
    rw [position, hitTest_congr path settings]
  have pressed := session.addedAt?_pressDown left shift noAlt
  have shift' : release.modifiers.shift = true := by rwa [modifiers]
  have clicked := (session.pressDown press).addedAt?_selectOnClick shift'
  rw [hits, settings, ← selection] at clicked
  refine ⟨released, run, samePath.trans path, ?_⟩
  cases hit? : (session.hitTest press.position).map (·.item) with
  | none =>
    intro item
    rw [hit?] at pressed clicked
    rw [stamped_iff, clicked, if_neg nofun, pressed, if_neg nofun]
  | some hit =>
    rw [hit?] at pressed clicked
    refine ⟨?_, fun item apart => ?_⟩
    · rw [stamped_iff, clicked, if_pos rfl, pressed, if_pos rfl]
      cases session.selection.addedAt? hit with
      | none =>
        -- what the press added is recent, for the release is a click
        exact if_pos inTime
      | some time => rfl
    · have other : some hit ≠ some item := fun same => apart (Option.some.inj same).symm
      rw [stamped_iff, clicked, if_neg other, pressed, if_neg other]

/-- Of two selected items the one that was selected long ago is hit and taken out. -/
theorem shiftClick_twin :
    let selection := (Selection.only (Item.anchor ⟨1⟩) 100).insert (Item.anchor ⟨2⟩) 200
    let session : Session Float := { ofPath twinAnchors ⟨4⟩ Settings.default with selection }
    let press : PointerEvent Float :=
      ⟨⟨0.5, 0.2⟩, some .left, { Modifiers.none with shift := true }, 1000⟩
    let release : PointerEvent Float := { press with time := 1050 }
    press.button = some .left ∧ press.modifiers.shift = true ∧ press.modifiers.alt = false ∧
      release.position = press.position ∧ release.modifiers = press.modifiers ∧
      (session.pressDown press).isClick release = true ∧
      ∃ released, (session.pressDown press).release release = .ok (released, true) ∧
        released.path = session.path ∧ released.selection.Stamped (Item.anchor ⟨1⟩) none ∧
        released.selection.Stamped (Item.anchor ⟨2⟩) (some 200) := by
  intro selection session press release
  have settings : session.settings = Settings.default := by
    show (settle _).settings = _
    rw [settle_frame]
  have path : session.path = twinAnchors := ofPath_path _ _ _
  have click : (session.pressDown press).isClick release = true := by
    have left : press.button = some .left := rfl
    obtain ⟨_, _, form⟩ := session.pressDown_eq left
    rw [form]
    unfold isClick
    dsimp only
    rw [settings]
    decide +kernel
  obtain ⟨released, run, samePath, stamps⟩ :=
    shiftClick_toggles session press release rfl rfl rfl rfl rfl click
  have hit : (session.hitTest press.position).map (·.item) = some (Item.anchor ⟨1⟩) := by
    unfold hitTest
    rw [path, settings]
    decide +kernel
  rw [hit, settings] at stamps
  exact ⟨rfl, rfl, rfl, rfl, rfl, click, released, run, samePath, stamps.1,
    stamps.2 (Item.anchor ⟨2⟩) (by decide)⟩

end Session

end Easing
