/-
**Paths that agree but in some items.**

Two paths of the same identifiers may differ in the anchors and handles of a set of items, those of
the first segment under each identifier. A change of one segment on both sides leaves them to agree
in what it writes.

* `Segment.AgreeBut`, `Path.AgreeBut`: the relation on segments and on paths.
* `Path.AgreeBut.trans`, `Path.AgreeBut.mono`: it is transitive and grows with its set.
* `Path.AgreeBut.modify`: one change on both sides, `Path.AgreeBut.of_modify`: on one side.
* `Path.AgreeBut.eq_of_handles`: what is left to compare when only handles are free.
-/
import Easing.Proofs.Path.Modify
import Easing.Selection

set_option linter.unusedSectionVars false

namespace Easing

/-! ### Segments -/

@[simp] theorem Segment.handle_setHandle {α : Type} (segment : Segment α) (side side' : Side)
    (handle : Vec α) : (segment.setHandle side handle).handle side' =
      if side' = side then handle else segment.handle side' := by
  cases side <;> cases side' <;> rfl

@[simp] theorem Segment.point_setHandle {α : Type} (segment : Segment α) (side : Side)
    (handle : Vec α) : (segment.setHandle side handle).point = segment.point := by
  cases side <;> rfl

@[simp] theorem Segment.id_setHandle {α : Type} (segment : Segment α) (side : Side)
    (handle : Vec α) : (segment.setHandle side handle).id = segment.id := by
  cases side <;> rfl

theorem Side.opposite_opposite (side : Side) : side.opposite.opposite = side := by
  cases side <;> rfl

variable {α : Type} [Scalar α]

/-- Two segments that differ at most in some parts. -/
structure Segment.AgreeBut (free : Part → Prop) (segment other : Segment α) : Prop where
  id : other.id = segment.id
  point : ¬free .anchor → other.point = segment.point
  handle : ∀ side, ¬free (.handle side) → other.handle side = segment.handle side

namespace Segment

variable {free free' : Part → Prop} {segment other third : Segment α}

theorem AgreeBut.refl (free : Part → Prop) (segment : Segment α) : AgreeBut free segment segment :=
  ⟨rfl, fun _ => rfl, fun _ _ => rfl⟩

theorem AgreeBut.mono (agree : AgreeBut free segment other) (more : ∀ part, free part → free' part) :
    AgreeBut free' segment other :=
  ⟨agree.id, fun bound => agree.point fun loose => bound (more _ loose),
    fun side bound => agree.handle side fun loose => bound (more _ loose)⟩

theorem AgreeBut.symm (agree : AgreeBut free segment other) : AgreeBut free other segment :=
  ⟨agree.id.symm, fun bound => (agree.point bound).symm,
    fun side bound => (agree.handle side bound).symm⟩

theorem AgreeBut.trans (first : AgreeBut free segment other) (second : AgreeBut free other third) :
    AgreeBut free segment third :=
  ⟨second.id.trans first.id, fun bound => (second.point bound).trans (first.point bound),
    fun side bound => (second.handle side bound).trans (first.handle side bound)⟩

/-- Segments that agree in all parts are the same. -/
theorem AgreeBut.eq (agree : AgreeBut free segment other) (none : ∀ part, ¬free part) :
    other = segment := by
  have point := agree.point (none _)
  have handleIn : other.handleIn = segment.handleIn := agree.handle .incoming (none _)
  have handleOut : other.handleOut = segment.handleOut := agree.handle .outgoing (none _)
  have id := agree.id
  obtain ⟨⟨_, _, _⟩, _⟩ := segment
  obtain ⟨⟨_, _, _⟩, _⟩ := other
  simp only at point handleIn handleOut id
  rw [point, handleIn, handleOut, id]

end Segment

/-! ### Paths -/

namespace Path

/-- Two paths that differ at most in some items. -/
structure AgreeBut (free : Item → Prop) (path other : Path α) : Prop where
  domain : other.domain = path.domain
  ids : other.ids = path.ids
  each : ∀ index segment segment', path.segments[index]? = some segment →
    other.segments[index]? = some segment' →
      Segment.AgreeBut (fun part => path.index? segment.id = some index ∧ free ⟨segment.id, part⟩)
        segment segment'

/-- A handle of the segment with an identifier. -/
def handle? (path : Path α) (id : SegmentId) (side : Side) : Option (Vec α) :=
  (path.find? id).map fun segment => segment.handle side

namespace AgreeBut

variable {free free' : Item → Prop} {path other third : Path α}

theorem refl (free : Item → Prop) (path : Path α) : AgreeBut free path path where
  domain := rfl
  ids := rfl
  each := by
    intro index segment segment' found found'
    obtain rfl := Option.some.inj (found.symm.trans found')
    exact Segment.AgreeBut.refl _ _

theorem mono (agree : AgreeBut free path other) (more : ∀ item, free item → free' item) :
    AgreeBut free' path other where
  domain := agree.domain
  ids := agree.ids
  each index _ _ found found' :=
    (agree.each index _ _ found found').mono fun _ => And.imp_right (more _)

theorem symm (agree : AgreeBut free path other) : AgreeBut free other path where
  domain := agree.domain.symm
  ids := agree.ids.symm
  each := by
    intro index segment segment' found found'
    have here := agree.each index segment' segment found' found
    refine here.symm.mono fun part => ?_
    rw [index?_of_ids agree.ids, here.id]
    exact fun loose => loose

theorem trans (first : AgreeBut free path other) (second : AgreeBut free other third) :
    AgreeBut free path third where
  domain := second.domain.trans first.domain
  ids := second.ids.trans first.ids
  each := by
    intro index segment segment'' found found''
    obtain ⟨segment', found', sameId⟩ := getElem?_of_ids first.ids found
    refine (first.each index _ _ found found').trans
      ((second.each index _ _ found' found'').mono fun part => ?_)
    rw [index?_of_ids first.ids, sameId]
    exact fun loose => loose

/-- Segments that are found by one identifier. -/
theorem of_find? {id : SegmentId} {segment segment' : Segment α} (agree : AgreeBut free path other)
    (found : path.find? id = some segment) (found' : other.find? id = some segment') :
    Segment.AgreeBut (fun part => free ⟨id, part⟩) segment segment' := by
  have isId := (find?_eq_some found).2
  rw [find?_eq_bind, Option.bind_eq_some_iff] at found found'
  obtain ⟨index, place, found⟩ := found
  obtain ⟨index', place', found'⟩ := found'
  rw [index?_of_ids agree.ids, place, Option.some.injEq] at place'
  subst place'
  refine (agree.each index _ _ found found').mono fun part => ?_
  rw [isId]
  exact And.right

/-- The other path has a segment where this one has. -/
theorem exists_find? {id : SegmentId} {segment : Segment α} (agree : AgreeBut free path other)
    (found : path.find? id = some segment) : ∃ segment', other.find? id = some segment' := by
  rw [find?_eq_bind, Option.bind_eq_some_iff] at found
  obtain ⟨index, place, found⟩ := found
  obtain ⟨segment', found', -⟩ := getElem?_of_ids agree.ids found
  exact ⟨segment', by rw [find?_eq_bind, index?_of_ids agree.ids, place, Option.bind_some, found']⟩

theorem handle?_eq {id : SegmentId} {side : Side} (agree : AgreeBut free path other)
    (bound : ¬free ⟨id, .handle side⟩) : other.handle? id side = path.handle? id side := by
  unfold handle?
  cases found : path.find? id with
  | some segment =>
    obtain ⟨segment', found'⟩ := agree.exists_find? found
    rw [found', Option.map_some, Option.map_some, (agree.of_find? found found').handle side bound]
  | none =>
    cases found' : other.find? id with
    | none => rfl
    | some segment' =>
      obtain ⟨segment, some⟩ := agree.symm.exists_find? found'
      rw [found] at some
      cases some

/-- Paths that agree but in handles are the same when these handles are. -/
theorem eq_of_handles (agree : AgreeBut free path other)
    (handles : ∀ item, free item → ∃ side, item.part = .handle side ∧
      other.handle? item.segment side = path.handle? item.segment side) : other = path := by
  have segments : other.segments = path.segments := by
    refine List.ext_getElem? fun index => ?_
    cases found : path.segments[index]? with
    | none => exact getElem?_eq_none_of_ids agree.ids found
    | some segment =>
      obtain ⟨segment', found', sameId⟩ := getElem?_of_ids agree.ids found
      have here := agree.each index _ _ found found'
      rw [found', Option.some.injEq]
      refine Segment.AgreeBut.eq ⟨sameId, fun _ => here.point ?_, fun side _ => ?_⟩
        fun _ => not_false
      · rintro ⟨-, loose⟩
        obtain ⟨side, handle, -⟩ := handles _ loose
        cases handle
      · by_cases loose : path.index? segment.id = some index ∧ free ⟨segment.id, .handle side⟩
        · obtain ⟨side', part, same⟩ := handles _ loose.2
          obtain rfl : side = side' := Part.handle.inj part
          have first : path.find? segment.id = some segment := by
            rw [find?_eq_bind, loose.1, Option.bind_some, found]
          have second : other.find? segment.id = some segment' := by
            rw [find?_eq_bind, index?_of_ids agree.ids, loose.1, Option.bind_some, found']
          unfold handle? at same
          rw [first, second] at same
          exact Option.some.inj same
        · exact here.handle side loose
  obtain ⟨_, _⟩ := path
  obtain ⟨_, _⟩ := other
  have domain := agree.domain
  simp only at segments domain
  rw [segments, domain]

/-- Changes of one segment on both sides. -/
theorem modify {id : SegmentId} {change change' : Segment α → Segment α}
    (agree : AgreeBut free path other) (sameId : ∀ segment, (change segment).id = segment.id)
    (sameId' : ∀ segment, (change' segment).id = segment.id)
    (others : ∀ item, item.segment ≠ id → free item → free' item)
    (changed : ∀ segment segment', path.find? id = some segment → other.find? id = some segment' →
      Segment.AgreeBut (fun part => free' ⟨id, part⟩) (change segment) (change' segment')) :
    AgreeBut free' (path.modify id change) (other.modify id change') where
  domain := agree.domain
  ids := by rw [ids_modify sameId, ids_modify sameId', agree.ids]
  each := by
    intro index segment segment' found found'
    rw [getElem?_modify, Option.map_eq_some_iff] at found found'
    obtain ⟨before, here, rfl⟩ := found
    obtain ⟨before', here', rfl⟩ := found'
    rw [index?_of_ids agree.ids]
    -- at its first place the identifier is changed, elsewhere the paths are what they were
    by_cases place : path.index? id = some index
    · have first : path.find? id = some before := by
        rw [find?_eq_bind, place, Option.bind_some, here]
      have second : other.find? id = some before' := by
        rw [find?_eq_bind, index?_of_ids agree.ids, place, Option.bind_some, here']
      rw [if_pos place, if_pos place, sameId, (find?_eq_some first).2]
      refine (changed before before' first second).mono fun part loose => ⟨?_, loose⟩
      rw [index?_of_ids (ids_modify sameId), place]
    · rw [if_neg place, if_neg place]
      refine (agree.each index _ _ here here').mono fun part ⟨isFirst, loose⟩ => ⟨?_, ?_⟩
      · rw [index?_of_ids (ids_modify sameId), isFirst]
      · exact others _ (fun same => place (same ▸ isFirst)) loose

/-- A change of one segment. -/
theorem of_modify {id : SegmentId} {change : Segment α → Segment α}
    (sameId : ∀ segment, (change segment).id = segment.id)
    (changed : ∀ segment, path.find? id = some segment →
      Segment.AgreeBut (fun part => free ⟨id, part⟩) segment (change segment)) :
    AgreeBut free path (path.modify id change) := by
  have both : AgreeBut free (path.modify id fun segment => segment) (path.modify id change) := by
    refine (refl free path).modify (fun _ => rfl) sameId (fun _ _ loose => loose) ?_
    intro segment segment' found found'
    obtain rfl := Option.some.inj (found.symm.trans found')
    exact changed segment found
  rwa [modify_self] at both

end AgreeBut

end Path

end Easing
