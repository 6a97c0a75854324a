/-
**Edits of handles never fail in a domain.**

A domain that is an interval refuses no handle: clamping, mirroring, dragging and smoothing all give
a segment, with the identifier and the anchor that it had.
-/
import Easing.Session.Edit
import Easing.Proofs.Path.Order

set_option linter.unusedSectionVars false

namespace Easing

variable {α : Type} [Scalar α] {domain : α}

/-- Only the handles of a segment have changed. -/
structure OnlyHandles (segment changed : Segment α) : Prop where
  id : changed.id = segment.id
  point : changed.point = segment.point

theorem OnlyHandles.refl (segment : Segment α) : OnlyHandles segment segment := ⟨rfl, rfl⟩

theorem onlyHandles_setHandle (segment : Segment α) (side : Side) (handle : Vec α) :
    OnlyHandles segment (segment.setHandle side handle) := by
  cases side <;> exact ⟨rfl, rfl⟩

theorem clampToDomain_ok (width : 0 ≤ domain) (a : α) :
    clampToDomain domain a = .ok (Scalar.clamp 0 domain a) := if_pos width

theorem clampHandle_ok (width : 0 ≤ domain) (knot : Knot α) (side : Side) (target : Point α) :
    ∃ handle, clampHandle knot side target domain = .ok handle := by
  unfold clampHandle
  split
  · exact ⟨_, rfl⟩
  · split
    · rw [clampToDomain_ok width]
      exact ⟨_, rfl⟩
    · exact ⟨_, rfl⟩

theorem mirrorHandle_ok (width : 0 ≤ domain) (segment : Segment α) (leader : Side) :
    ∃ changed, mirrorHandle segment leader domain = .ok changed ∧ OnlyHandles segment changed := by
  obtain ⟨handle, clamped⟩ := clampHandle_ok width segment.toKnot leader.opposite
    (segment.point - segment.handle leader)
  unfold mirrorHandle
  simp only [clamped]
  exact ⟨_, rfl, onlyHandles_setHandle _ _ _⟩

namespace Session

theorem dragHandle_ok (width : 0 ≤ domain) (segment : Segment α) (side : Side) (target : Point α)
    (paired : Bool) :
    ∃ changed, dragHandle segment side target domain paired = .ok changed ∧
      OnlyHandles segment changed := by
  obtain ⟨handle, clamped⟩ := clampHandle_ok width segment.toKnot side target
  have moved := onlyHandles_setHandle segment side handle
  unfold dragHandle
  simp only [clamped]
  cases paired with
  | false => exact ⟨_, rfl, moved⟩
  | true =>
    obtain ⟨changed, mirrored, kept⟩ := mirrorHandle_ok width (segment.setHandle side handle) side
    exact ⟨changed, mirrored, ⟨kept.id.trans moved.id, kept.point.trans moved.point⟩⟩

theorem smoothSegment_ok (width : 0 ≤ domain) (segment : Segment α)
    (previous next : Option (Point α)) (length : α) :
    ∃ changed, smoothSegment segment previous next length domain = .ok changed ∧
      OnlyHandles segment changed := by
  unfold smoothSegment
  split
  · exact ⟨_, rfl, ⟨rfl, rfl⟩⟩
  · exact ⟨_, rfl, ⟨rfl, rfl⟩⟩
  case h_3 previous next =>
    let tangent := (next - previous).divide 6
    obtain ⟨handleOut, clamped⟩ := clampHandle_ok width segment.toKnot .outgoing
      (segment.point + tangent)
    obtain ⟨handleIn, clamped'⟩ := clampHandle_ok width { segment.toKnot with handleOut } .incoming
      (segment.point - tangent)
    unfold smoothInterior
    simp only [tangent] at clamped clamped'
    simp only [clamped, bind, Except.bind, clamped']
    exact ⟨_, rfl, ⟨rfl, rfl⟩⟩
  · exact ⟨_, rfl, OnlyHandles.refl segment⟩

end Session

end Easing
