/-
**What is hit is the nearest item.**

Two scans look for what is nearest to the pointer: that of a press goes over items in path order and
passes over what lies outside the hit radius, that of a hovering pointer goes over points, a
segment's handles first, and looks at the radius at its end. Both find the first of the nearest in
their order, so a pointer hovers over the path where a press hits something strictly inside the
radius. Only the order of distances is used, and that they are numbers.

* `FirstLeast`: the first item with the least key; `FirstLeast.keep`, `FirstLeast.replace` say how a
  scan goes on.
* `Path.hittable`: the items of a path that can be hit.
* `Session.scanned_hitTest`, `Path.nearest?_cases`: what the two scans find.
* `Session.hitTest_nearest`: the nearest item, and the nearest point beside it.
-/
import Easing.Decimal.Layout
import Easing.Proofs.Binary64.Distance
import Easing.Proofs.Path.Snapshot
import Easing.Proofs.Session.Run

set_option linter.unusedSectionVars false

namespace Easing

open Scalar OrderedScalar

variable {α : Type} [Scalar α]

/-! ### The first of the least -/

section Least

variable {β : Type} {key : β → α} {items : List β} {item next : β}

/-- The item has the least key, and it is the first one with it. -/
def FirstLeast (key : β → α) (items : List β) (item : β) : Prop :=
  ∃ before after, items = before ++ item :: after ∧
    (∀ other ∈ before, key item < key other) ∧ ∀ other ∈ after, key item ≤ key other

theorem firstLeast_singleton (key : β → α) (item : β) : FirstLeast key [item] item :=
  ⟨[], [], rfl, nofun, nofun⟩

theorem FirstLeast.mem (least : FirstLeast key items item) : item ∈ items := by
  obtain ⟨before, after, rfl, -, -⟩ := least
  exact List.mem_append_right _ List.mem_cons_self

/-- An item that is not nearer changes nothing. -/
theorem FirstLeast.keep (least : FirstLeast key items item) (le : key item ≤ key next) :
    FirstLeast key (items ++ [next]) item := by
  obtain ⟨before, after, rfl, first, rest⟩ := least
  refine ⟨before, after ++ [next], by simp, first, fun other member => ?_⟩
  rcases List.mem_append.mp member with member | member
  · exact rest other member
  · rw [List.mem_singleton.mp member]
    exact le

variable [OrderedScalar α]

theorem FirstLeast.le (least : FirstLeast key items item) (number : IsNumber (key item)) :
    ∀ other ∈ items, key item ≤ key other := by
  obtain ⟨before, after, rfl, first, rest⟩ := least
  intro other member
  rcases List.mem_append.mp member with member | member
  · exact le_of_lt (first other member)
  · rcases List.mem_cons.mp member with rfl | member
    · exact le_self number
    · exact rest other member

/-- An item that is nearer takes the place. -/
theorem FirstLeast.replace (least : FirstLeast key items item) (lt : key next < key item) :
    FirstLeast key (items ++ [next]) next := by
  have number : IsNumber (key item) := isNumber_right (le_of_lt lt)
  exact ⟨items, [], rfl,
    fun other member => lt_of_lt_of_le lt (least.le number other member), nofun⟩

end Least

/-! ### What can be hit -/

/-- The part of the segment can be hit: it is the anchor or a handle with a length. -/
def canHit (segment : Segment α) : Part → Bool
  | .anchor => true
  | .handle side => !(segment.handle side).isZero

@[simp] theorem canHit_anchor (segment : Segment α) : canHit segment .anchor = true := rfl

@[simp] theorem canHit_handle (segment : Segment α) (side : Side) :
    canHit segment (.handle side) = !(segment.handle side).isZero := rfl

/-- The items of a path that can be hit, with their positions: from left to right, an anchor before
its incoming handle and this one before the outgoing one. -/
def Path.hittable (path : Path α) : List (Item × Point α) :=
  path.segments.flatMap fun segment =>
    ([.anchor, .handle .incoming, .handle .outgoing].filter (canHit segment)).map fun part =>
      (⟨segment.id, part⟩, Session.partPoint segment part)

theorem Path.hittable_eq (path : Path α) :
    path.hittable = path.segments.flatMap Session.targets := by
  unfold Path.hittable
  congr 1
  funext segment
  unfold Session.targets Session.handleTarget
  cases incoming : (segment.handle .incoming).isZero <;>
    cases outgoing : (segment.handle .outgoing).isZero <;>
      simp [List.filter_cons, incoming, outgoing, Session.partPoint, Item.anchor, Item.handle]

/-- The scan of a hovering pointer goes over the positions of the same items. -/
theorem Path.mem_candidates_iff {path : Path α} {point : Point α} :
    point ∈ path.segments.flatMap Path.candidates ↔ ∃ target ∈ path.hittable, target.2 = point := by
  have one : ∀ segment : Segment α, point ∈ Path.candidates segment ↔
      ∃ target ∈ Session.targets segment, target.2 = point := by
    intro segment
    unfold Path.candidates Session.targets Session.handleTarget
    show point ∈ (if (segment.handle .incoming).isZero then [] else _) ++
      (if (segment.handle .outgoing).isZero then [] else _) ++ _ ↔ _
    cases (segment.handle .incoming).isZero <;> cases (segment.handle .outgoing).isZero <;>
      simp [or_comm, or_left_comm, eq_comm]
  rw [path.hittable_eq]
  simp only [List.mem_flatMap, one]
  constructor
  · rintro ⟨segment, inside, target, isTarget, same⟩
    exact ⟨target, ⟨segment, inside, isTarget⟩, same⟩
  · rintro ⟨target, ⟨segment, inside, isTarget⟩, same⟩
    exact ⟨segment, inside, target, isTarget, same⟩

/-! ### The two scans -/

section Scans

variable [OrderedScalar α] {position : Point α} {radius : α}

/-- The distance of an item from a position. -/
def distanceFrom (position : Point α) (target : Item × Point α) : α := target.2.distance position

/-- What a press finds among items: nothing when all lie outside the radius, and else the first of
the nearest. -/
def Scanned (position : Point α) (radius : α) (items : List (Item × Point α)) :
    Option (Hit α) → Prop
  | none => ∀ target ∈ items, radius < distanceFrom position target
  | some hit => hit.distance = hit.point.distance position ∧ ¬radius < hit.distance ∧
      FirstLeast (distanceFrom position) items (hit.item, hit.point)

/-- The scan of a press goes on to the next item. -/
theorem Scanned.step {items : List (Item × Point α)} {best : Option (Hit α)}
    {next : Item × Point α} (scanned : Scanned position radius items best)
    (number : IsNumber (distanceFrom position next))
    (numbers : ∀ target ∈ items, IsNumber (distanceFrom position target)) :
    Scanned position radius (items ++ [next]) (Session.nearerHit position radius best next) := by
  unfold Session.nearerHit
  dsimp only
  by_cases far : radius < next.2.distance position
  · rw [if_pos far]
    cases best with
    | none =>
      intro target member
      rcases List.mem_append.mp member with member | member
      · exact scanned target member
      · rw [List.mem_singleton.mp member]
        exact far
    | some hit =>
      obtain ⟨item, point, distance⟩ := hit
      obtain ⟨own, near, least⟩ := scanned
      dsimp only at own near least
      subst own
      have inside : point.distance position ≤ radius :=
        le_of_not_lt (isNumber_left (Scalar.le_of_lt far)) (numbers _ least.mem) near
      exact ⟨rfl, near, least.keep (Scalar.le_of_lt (Scalar.lt_of_le_of_lt inside far))⟩
  · rw [if_neg far]
    cases best with
    | none =>
      refine ⟨rfl, far, items, [], rfl, fun other member => ?_, nofun⟩
      have beyond := scanned other member
      have inside := le_of_not_lt (isNumber_left (Scalar.le_of_lt beyond)) number far
      exact Scalar.lt_of_le_of_lt inside beyond
    | some hit =>
      obtain ⟨item, point, distance⟩ := hit
      obtain ⟨own, near, least⟩ := scanned
      dsimp only at own near least
      subst own
      by_cases nearer : next.2.distance position < point.distance position
      · simp only [nearer, decide_true, if_true]
        exact ⟨rfl, far, least.replace nearer⟩
      · simp only [nearer, decide_false, Bool.false_eq_true, if_false]
        exact ⟨rfl, near, least.keep (le_of_not_lt number (numbers _ least.mem) nearer)⟩

/-- **A press finds the first of the nearest items** within the radius. -/
theorem Session.scanned_hitTest (session : Session α)
    (numbers : ∀ target ∈ session.path.hittable, IsNumber (distanceFrom position target)) :
    Scanned position session.settings.hitRadius session.path.hittable
      (session.hitTest position) := by
  unfold Session.hitTest
  rw [← session.path.hittable_eq]
  generalize session.path.hittable = items at numbers
  induction items using List.reverseRecOn with
  | nil => exact fun _ member => absurd member List.not_mem_nil
  | append_singleton items next ih =>
    rw [List.foldl_append]
    have earlier : ∀ target ∈ items, IsNumber (distanceFrom position target) :=
      fun target member => numbers target (List.mem_append_left _ member)
    exact (ih earlier).step (numbers next (List.mem_append_right _ (List.mem_singleton_self _)))
      earlier

/-- The scan of a hovering pointer, over all points but the first. -/
theorem Path.firstLeast_foldl_nearer {target seed : Point α} {rest : List (Point α)}
    (numbers : ∀ point ∈ seed :: rest, IsNumber (point.distance target)) :
    let best := rest.foldl (Path.nearer target) (seed, seed.distance target)
    FirstLeast (·.distance target) (seed :: rest) best.1 ∧ best.2 = best.1.distance target := by
  induction rest using List.reverseRecOn with
  | nil => exact ⟨firstLeast_singleton _ _, rfl⟩
  | append_singleton rest next ih =>
    obtain ⟨least, own⟩ := ih fun point member => numbers point
      (List.cons_append ▸ List.mem_append_left _ member)
    rw [List.foldl_append]
    generalize rest.foldl (Path.nearer target) (seed, seed.distance target) = best at least own
    have number := numbers next (List.mem_cons_of_mem _ (List.mem_append_right _
      (List.mem_singleton_self _)))
    have isNumber := numbers best.1 (List.cons_append ▸ List.mem_append_left _ least.mem)
    obtain ⟨point, distance⟩ := best
    dsimp only at own least isNumber
    subst own
    show FirstLeast _ ((seed :: rest) ++ [next])
        (Path.nearer target (point, point.distance target) next).1 ∧
      (Path.nearer target (point, point.distance target) next).2 =
        (Path.nearer target (point, point.distance target) next).1.distance target
    unfold Path.nearer
    dsimp only
    by_cases nearer : next.distance target < point.distance target
    · rw [if_pos nearer]
      exact ⟨least.replace nearer, rfl⟩
    · rw [if_neg nearer]
      exact ⟨least.keep (le_of_not_lt number isNumber nearer), rfl⟩

/-- **A hovering pointer finds the first of the nearest points**, when there is a point, and takes
it when it is nearer than the threshold. -/
theorem Path.nearest?_cases (path : Path α) {target : Point α} (threshold : α)
    (numbers : ∀ point ∈ path.segments.flatMap Path.candidates, IsNumber (point.distance target)) :
    (path.segments.flatMap Path.candidates = [] ∧ path.nearest? target threshold = none) ∨
      ∃ point, FirstLeast (·.distance target) (path.segments.flatMap Path.candidates) point ∧
        path.nearest? target threshold =
          if point.distance target < threshold then some point else none := by
  unfold Path.nearest?
  generalize path.segments.flatMap Path.candidates = points at numbers
  cases points with
  | nil => exact .inl ⟨rfl, rfl⟩
  | cons seed rest =>
    obtain ⟨least, own⟩ := Path.firstLeast_foldl_nearer numbers
    refine .inr ⟨_, least, ?_⟩
    rw [← own]

/-! ### Where the scans agree -/

section Press

variable (session : Session α)
  (numbers : ∀ target ∈ session.path.hittable, IsNumber (distanceFrom position target))

include numbers

/-- Nothing is hit where every item lies outside the radius. -/
theorem Session.hitTest_eq_none_iff : session.hitTest position = none ↔
    ∀ target ∈ session.path.hittable,
      session.settings.hitRadius < target.2.distance position := by
  have scanned := session.scanned_hitTest numbers
  constructor
  · intro nothing
    rw [nothing] at scanned
    exact scanned
  · intro far
    cases found : session.hitTest position with
    | none => rfl
    | some hit =>
      rw [found] at scanned
      obtain ⟨own, inside, least⟩ := scanned
      exact absurd (far _ least.mem) (own ▸ inside)

/-- What is hit is the first of the nearest items. -/
theorem Session.hitTest_firstLeast {hit : Hit α} (found : session.hitTest position = some hit) :
    hit.distance = hit.point.distance position ∧ ¬session.settings.hitRadius < hit.distance ∧
      ∃ before after, session.path.hittable = before ++ (hit.item, hit.point) :: after ∧
        (∀ target ∈ before, hit.distance < target.2.distance position) ∧
        ∀ target ∈ after, hit.distance ≤ target.2.distance position := by
  have scanned := session.scanned_hitTest numbers
  rw [found] at scanned
  obtain ⟨own, inside, before, after, split, first, rest⟩ := scanned
  rw [own]
  exact ⟨rfl, own ▸ inside, before, after, split, first, rest⟩

end Press

/-- A hovering pointer grabs where it is down or near to the path. -/
theorem Session.hover_grabbing_iff (session : Session α) (position : Point α)
    (modifiers : Modifiers) : (session.hover position modifiers).cursor = .grabbing ↔
      session.isDown ∨
        (session.path.nearest? position session.settings.hitRadius).isSome := by
  show session.cursorAt position modifiers = .grabbing ↔ _
  unfold Session.cursorAt
  dsimp only
  rw [← Bool.or_eq_true]
  split_ifs with grabs adds
  · exact iff_of_true rfl grabs
  · exact iff_of_false nofun grabs
  · exact iff_of_false nofun grabs

/-- A press hits something strictly inside the radius where a hovering pointer finds a point, and at
its distance. -/
theorem Session.nearest?_hitTest (session : Session α)
    (numbers : ∀ target ∈ session.path.hittable, IsNumber (distanceFrom position target)) :
    ((session.path.nearest? position session.settings.hitRadius).isSome ↔
      ∃ hit, session.hitTest position = some hit ∧ hit.distance < session.settings.hitRadius) ∧
    ∀ point hit, session.path.nearest? position session.settings.hitRadius = some point →
      session.hitTest position = some hit →
        (∃ item, (item, point) ∈ session.path.hittable) ∧
          Alike (point.distance position) hit.distance := by
  have scanned := session.scanned_hitTest numbers
  have pointNumbers : ∀ point ∈ session.path.segments.flatMap Path.candidates,
      IsNumber (point.distance position) := by
    intro point member
    obtain ⟨target, inside, rfl⟩ := Path.mem_candidates_iff.mp member
    exact numbers target inside
  rcases session.path.nearest?_cases session.settings.hitRadius pointNumbers with
    ⟨none, same⟩ | ⟨point, least, same⟩
  · -- a path without points: nothing is hit
    have noItem : ∀ target, target ∉ session.path.hittable := by
      intro target member
      have := Path.mem_candidates_iff.mpr ⟨target, member, rfl⟩
      rw [none] at this
      exact List.not_mem_nil this
    rw [same]
    refine ⟨iff_of_false Bool.false_ne_true ?_, nofun⟩
    rintro ⟨hit, found, -⟩
    rw [found] at scanned
    exact noItem _ scanned.2.2.mem
  · obtain ⟨target, inside, isPoint⟩ := Path.mem_candidates_iff.mp least.mem
    have number := pointNumbers point least.mem
    have isNearest : ∀ other ∈ session.path.hittable,
        point.distance position ≤ distanceFrom position other := fun other member =>
      least.le number other.2 (Path.mem_candidates_iff.mpr ⟨other, member, rfl⟩)
    -- an item that is hit is as near as the nearest point
    have alike : ∀ hit, session.hitTest position = some hit →
        Alike (point.distance position) hit.distance := by
      intro hit found
      rw [found] at scanned
      obtain ⟨own, -, nearest⟩ := scanned
      have least' := nearest.le (numbers _ nearest.mem) target inside
      rw [own]
      exact ⟨isNearest _ nearest.mem, isPoint ▸ least'⟩
    rw [same]
    refine ⟨?_, fun other hit found isHit => ?_⟩
    · constructor
      · intro isSome
        have near : point.distance position < session.settings.hitRadius := by
          by_contra far
          rw [if_neg far] at isSome
          exact Bool.false_ne_true isSome
        cases found : session.hitTest position with
        | none =>
          rw [found] at scanned
          have beyond : session.settings.hitRadius < point.distance position :=
            isPoint ▸ scanned target inside
          exact absurd (le_of_lt near) (not_le_of_lt beyond)
        | some hit => exact ⟨hit, rfl, lt_of_le_of_lt (alike hit found).2 near⟩
      · rintro ⟨hit, found, near⟩
        rw [if_pos (lt_of_le_of_lt (alike hit found).1 near)]
        rfl
    · split_ifs at found
      obtain rfl := Option.some.inj found
      exact ⟨⟨target.1, isPoint ▸ inside⟩, alike hit isHit⟩

end Scans

/-! ### Doubles -/

/-- On a path with finite coordinates every item has a distance from a finite position. -/
theorem Path.IsFinite.isNumber_distance {path : Path Float} (finite : path.IsFinite)
    {position : Point Float} (finiteX : isFinite position.x = true)
    (finiteY : isFinite position.y = true) :
    ∀ target ∈ path.hittable, IsNumber (distanceFrom position target) := by
  intro target member
  obtain ⟨segment, inside, isTarget⟩ := List.mem_flatMap.mp member
  obtain ⟨part, -, rfl⟩ := List.mem_map.mp isTarget
  have knot := finite _ (List.mem_map.mpr ⟨segment, inside, rfl⟩)
  have number : ∀ {a : Float}, isFinite a = true → a.isNaN = false := by
    intro a isFinite
    obtain ⟨x, holds⟩ := Binary64.holds_of_isFinite isFinite
    exact Binary64.isNaN_eq_false (by rw [Binary64.level_of_holds holds]; exact EReal.coe_ne_bot x)
  have sum : ∀ {a b : Float}, isFinite a = true → isFinite b = true → (a + b).isNaN = false := by
    intro a b isFinite isFinite'
    obtain ⟨x, holds⟩ := Binary64.holds_of_isFinite isFinite'
    exact Binary64.isNaN_add (number isFinite) holds
  cases part with
  | anchor => exact Binary64.isNaN_distance (number knot.x) (number knot.y) finiteX finiteY
  | handle side =>
    cases side with
    | incoming =>
      exact Binary64.isNaN_distance (sum knot.x knot.inX) (sum knot.y knot.inY) finiteX finiteY
    | outgoing =>
      exact Binary64.isNaN_distance (sum knot.x knot.outX) (sum knot.y knot.outY) finiteX finiteY

/-- **What is hit is the nearest item, and hovering agrees with it.** On a path with finite
coordinates and at a finite position, whatever the radius: nothing is hit if and only if every item
lies outside the radius. What is hit is an item at its position and distance, not outside the
radius, strictly nearer than every item before it and at least as near as every item after it. A
hovering pointer is near the path if and only if what is hit lies strictly inside the radius, and
then the point it is near to is that of an item and has the same distance. -/
theorem Session.hitTest_nearest (session : Session Float) (position : Point Float)
    (finite : session.path.IsFinite) (finiteX : isFinite position.x = true)
    (finiteY : isFinite position.y = true) :
    (session.hitTest position = none ↔
      ∀ target ∈ session.path.hittable,
        session.settings.hitRadius < target.2.distance position) ∧
    (∀ hit, session.hitTest position = some hit →
      hit.distance = hit.point.distance position ∧ ¬session.settings.hitRadius < hit.distance ∧
      ∃ before after, session.path.hittable = before ++ (hit.item, hit.point) :: after ∧
        (∀ target ∈ before, hit.distance < target.2.distance position) ∧
        ∀ target ∈ after, hit.distance ≤ target.2.distance position) ∧
    ((session.path.nearest? position session.settings.hitRadius).isSome ↔
      ∃ hit, session.hitTest position = some hit ∧ hit.distance < session.settings.hitRadius) ∧
    (∀ point hit, session.path.nearest? position session.settings.hitRadius = some point →
      session.hitTest position = some hit →
        (∃ item, (item, point) ∈ session.path.hittable) ∧
          (point.distance position == hit.distance) = true) ∧
    ∀ modifiers, (session.hover position modifiers).cursor = .grabbing ↔
      session.isDown ∨
        ∃ hit, session.hitTest position = some hit ∧ hit.distance < session.settings.hitRadius := by
  have numbers := finite.isNumber_distance finiteX finiteY
  obtain ⟨near, alike⟩ := session.nearest?_hitTest numbers
  refine ⟨session.hitTest_eq_none_iff numbers, fun hit found =>
    session.hitTest_firstLeast numbers found, near, fun point hit isPoint found => ?_,
    fun modifiers => ?_⟩
  · obtain ⟨item, same⟩ := alike point hit isPoint found
    exact ⟨item, beq_iff.mpr same⟩
  · rw [← near]
    exact session.hover_grabbing_iff position modifiers

/-- Two anchors whose facing handles end at one point. -/
def meetingHandles : Path Float :=
  ⟨[⟨⟨⟨0, 0⟩, ⟨0, 0⟩, ⟨0.5, 0.25⟩⟩, ⟨0⟩⟩, ⟨⟨⟨1, 0⟩, ⟨-0.5, 0.25⟩, ⟨0, 0⟩⟩, ⟨1⟩⟩], 1⟩

/-- A session on them, with a quarter as the radius. -/
def meetingSession : Session Float :=
  .ofPath meetingHandles ⟨2⟩ { Settings.default with hitTolerance := 0.25 }

theorem meetingSession_path : meetingSession.path = meetingHandles := Session.ofPath_path _ _ _

theorem meetingSession_settings :
    meetingSession.settings = { Settings.default with hitTolerance := 0.25 } := by
  show (Session.settle _).settings = _
  rw [Session.settle_frame]

/-- Of two handles at one point the first is hit. It lies at the radius itself, where a press still
hits it and a hovering pointer is not near the path. -/
theorem Session.hitTest_meetingHandles :
    let position : Point Float := ⟨0.5, 0.5⟩
    meetingSession.path.IsFinite ∧ isFinite position.x = true ∧ isFinite position.y = true ∧
      ∃ hit, meetingSession.hitTest position = some hit ∧
        hit.item = Item.handle ⟨0⟩ .outgoing ∧
        (∃ before after, meetingSession.path.hittable = before ++ (hit.item, hit.point) :: after ∧
          (∀ target ∈ before, hit.distance < target.2.distance position) ∧
          ∀ target ∈ after, hit.distance ≤ target.2.distance position) ∧
        meetingSession.path.nearest? position meetingSession.settings.hitRadius = none := by
  intro position
  have finite : meetingSession.path.IsFinite := by
    rw [meetingSession_path]
    decide +kernel
  have finiteX : isFinite position.x = true := by decide +kernel
  have finiteY : isFinite position.y = true := by decide +kernel
  obtain ⟨-, nearest, hovers, -⟩ :=
    meetingSession.hitTest_nearest position finite finiteX finiteY
  have hits : (meetingSession.hitTest position).map (fun hit => (hit.item, decide
      (hit.distance < meetingSession.settings.hitRadius))) =
        some (Item.handle ⟨0⟩ .outgoing, false) := by
    unfold hitTest
    rw [meetingSession_path, meetingSession_settings]
    decide +kernel
  obtain ⟨hit, found, same⟩ := Option.map_eq_some_iff.mp hits
  obtain ⟨item, notNear⟩ := Prod.mk.inj same
  refine ⟨finite, finiteX, finiteY, hit, found, item, (nearest hit found).2.2, ?_⟩
  rw [← Option.not_isSome_iff_eq_none, hovers]
  rintro ⟨other, isHit, near⟩
  rw [found] at isHit
  exact of_decide_eq_false notNear (Option.some.inj isHit ▸ near)

end Easing
