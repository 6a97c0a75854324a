/-
**What a record is read from.**

The fields of a record may stand in any order, between fields of other names, which are skipped
whatever they hold. A field with a default may be missing. An array holds the fields in order, and
may end before fields that have a default.

* `Tree.skipFault?_value`: a well-formed value can be skipped.
* `Shape.Fits`, `Shape.Fills`, `Shape.readFields_ok`: the slots that the fields of an object fill.
* `Shape.read_object`, `Shape.read_array`: the contents of a record.
* `Shape.read_object_refused`: an object is refused for what does not fit in it.
-/
import Easing.Json.Decode
import Easing.Proofs.Json.Rules

set_option linter.unusedSectionVars false

namespace Easing.Json

/-! ### Well-formed values are skipped -/

namespace Tree

mutual

/-- There is no fault in the value of a tree. -/
theorem skipFault?_value (tree : Tree) : tree.value.skipFault? = none := by
  cases tree with
  | null => rfl
  | boolean b => rfl
  | number form => rfl
  | text letters => rfl
  | array items =>
    rw [value, Value.skipFault?, skipItems?_values items]
    rfl
  | object fields =>
    rw [value, Value.skipFault?, skipFields?_fieldValues fields]
    rfl

theorem skipItems?_values (items : List Tree) : Value.skipItems? (values items) = none := by
  cases items with
  | nil => rfl
  | cons tree rest =>
    rw [values, Value.skipItems?, skipFault?_value tree, skipItems?_values rest]
    rfl

theorem skipFields?_fieldValues (fields : List (List Letter × Tree)) :
    Value.skipFields? (fieldValues fields) = none := by
  rcases fields with _ | ⟨⟨key, tree⟩, rest⟩
  · rfl
  · rw [fieldValues, Value.skipFields?, skipFault?_value tree, skipFields?_fieldValues rest]
    rfl

end

theorem values_eq_map (items : List Tree) : values items = items.map value := by
  induction items with
  | nil => rfl
  | cons tree rest ih => rw [values, ih, List.map_cons]

end Tree

/-! ### Names -/

theorem strict_of_keyName? {key : List Letter} {name : String} (named : keyName? key = some name) :
    ∃ characters, (quoted key).strict = .ok characters ∧ String.ofList characters = name := by
  unfold keyName? at named
  cases strict : (quoted key).strict with
  | error fault =>
    rw [strict] at named
    cases named
  | ok characters =>
    rw [strict] at named
    exact ⟨characters, rfl, Option.some.inj named⟩

variable {key : List Letter} {tree : Tree} {fields : FieldTrees} {name other : String}

theorem under_cons_self (named : keyName? key = some name) :
    under name ((key, tree) :: fields) = tree :: under name fields := by
  unfold under
  rw [List.filter_cons_of_pos, List.map_cons]
  exact decide_eq_true named

theorem under_cons_other (named : keyName? key = some other) (differ : other ≠ name) :
    under name ((key, tree) :: fields) = under name fields := by
  unfold under
  rw [List.filter_cons_of_neg]
  simpa only [named, decide_eq_true_eq, Option.some.injEq] using differ

/-! ### Fields of an object -/

/-- What a reader makes of the value of a tree. -/
def takeValue {β : Type} (reader : Decoder β) (tree : Tree) : Reading β := reader tree.value

namespace Shape

variable {β : Type} {n : ℕ} {shape : Shape Decoder β n} {slots filled : Slots β}
  {field : Field Decoder β} {problem : Problem}

/-- The field of a record with a name. -/
def field? (shape : Shape Decoder β n) (name : String) : Option (Field Decoder β) :=
  shape.fields.toList.find? fun field => field.name == name

/-- The slot under a name. -/
def slot? (slots : Slots β) (name : String) : Option (String × β) :=
  slots.find? fun slot => slot.1 == name

theorem readFields_cons (named : keyName? key = some name) (slots : Slots β) :
    shape.readFields slots (Tree.fieldValues ((key, tree) :: fields)) =
      match shape.field? name with
      | none => shape.readFields slots (Tree.fieldValues fields)
      | some field =>
        if slots.any fun slot => slot.1 == name then .error (.mismatch (.duplicateField name))
        else (field.read tree.value).bind fun content =>
          shape.readFields ((name, content) :: slots) (Tree.fieldValues fields) := by
  obtain ⟨characters, strict, rfl⟩ := strict_of_keyName? named
  rw [Tree.fieldValues, readFields]
  simp only [strict]
  cases found : shape.field? (String.ofList characters) with
  | none =>
    rw [field?] at found
    simp only [found]
    rw [Tree.skipFault?_value]
    rfl
  | some field =>
    rw [field?] at found
    simp only [found]
    rfl

theorem slot?_cons_self (content : β) :
    slot? ((name, content) :: slots) name = some (name, content) :=
  List.find?_cons_of_pos (beq_self_eq_true name)

theorem slot?_cons_other (differ : name ≠ other) (content : β) :
    slot? ((other, content) :: slots) name = slot? slots name :=
  List.find?_cons_of_neg (by simpa using differ.symm)

/-- What fits fills a slot. -/
theorem readFields_fit (named : keyName? key = some name) (known : shape.field? name = some field)
    (free : slot? slots name = none) {content : β} (fit : field.read tree.value = .ok content) :
    shape.readFields slots (Tree.fieldValues ((key, tree) :: fields)) =
      shape.readFields ((name, content) :: slots) (Tree.fieldValues fields) := by
  have notAny : (slots.any fun slot => slot.1 == name) = false :=
    List.any_eq_false.mpr (List.find?_eq_none.mp free)
  rw [readFields_cons named, known]
  dsimp only
  rw [notAny, if_neg Bool.false_ne_true, fit]
  rfl

/-- What does not fit is a problem of all fields, if there is no other before it. -/
theorem readFields_refused (keys : KeysAreTexts fields) (known : shape.field? name = some field)
    (member : tree ∈ under name fields) (misfit : field.read tree.value = .error problem) :
    ∃ first, shape.readFields slots (Tree.fieldValues fields) = .error first := by
  induction fields generalizing slots with
  | nil => exact absurd member List.not_mem_nil
  | cons head rest ih =>
    obtain ⟨key, other⟩ := head
    obtain ⟨own, named⟩ := Option.isSome_iff_exists.mp (keys _ List.mem_cons_self)
    have later := fun slots member => @ih slots
      (fun field member => keys field (List.mem_cons_of_mem _ member)) member
    rw [readFields_cons named]
    by_cases same : own = name
    · subst same
      rw [under_cons_self named, List.mem_cons] at member
      rw [known]
      dsimp only
      split
      case isTrue => exact ⟨_, rfl⟩
      case isFalse =>
        rcases member with rfl | inside
        · rw [misfit]
          exact ⟨_, rfl⟩
        · cases field.read other.value with
          | error first => exact ⟨first, rfl⟩
          | ok content => exact later _ inside
    · rw [under_cons_other named same] at member
      cases shape.field? own with
      | none => exact later _ member
      | some between =>
        dsimp only
        split
        case isTrue => exact ⟨_, rfl⟩
        case isFalse =>
          cases between.read other.value with
          | error first => exact ⟨first, rfl⟩
          | ok content => exact later _ member

/-- What stands under a name of the record fits, and fills a free slot. -/
structure Fits (shape : Shape Decoder β n) (slots : Slots β) (fields : FieldTrees) (name : String)
    (field : Field Decoder β) : Prop where
  read : ∀ tree ∈ under name fields, ∃ content, field.read tree.value = .ok content
  once : (under name fields).length ≤ 1
  free : (slot? slots name).isSome → under name fields = []

/-- A slot holds what stands under its name, and what it held before when nothing does. -/
structure Fills (shape : Shape Decoder β n) (slots : Slots β) (fields : FieldTrees)
    (filled : Slots β) (name : String) (field : Field Decoder β) : Prop where
  kept : under name fields = [] → slot? filled name = slot? slots name
  put : ∀ tree content, under name fields = [tree] → field.read tree.value = .ok content →
    slot? filled name = some (name, content)

section Step

variable {own : String} {field' : Field Decoder β} (named : keyName? key = some own)
include named

/-- A field of another name says nothing of what stands under a name. -/
theorem fits_cons_other (differ : own ≠ name) :
    shape.Fits slots ((key, tree) :: fields) name field ↔ shape.Fits slots fields name field := by
  constructor <;> rintro ⟨read, once, free⟩ <;>
    exact ⟨by simpa only [under_cons_other named differ] using read,
      by simpa only [under_cons_other named differ] using once,
      by simpa only [under_cons_other named differ] using free⟩

theorem fills_cons_other (differ : own ≠ name) :
    shape.Fills slots ((key, tree) :: fields) filled name field ↔
      shape.Fills slots fields filled name field := by
  constructor <;> rintro ⟨kept, put⟩ <;>
    exact ⟨by simpa only [under_cons_other named differ] using kept,
      by simpa only [under_cons_other named differ] using put⟩

/-- What stands first under a name fits, and nothing more stands under it. -/
theorem Fits.head (fits : shape.Fits slots ((key, tree) :: fields) own field) :
    (∃ content, field.read tree.value = .ok content) ∧ slot? slots own = none ∧
      under own fields = [] := by
  obtain ⟨read, once, free⟩ := fits
  rw [under_cons_self named] at read once free
  refine ⟨read tree List.mem_cons_self, ?_, ?_⟩
  · cases taken : slot? slots own with
    | none => rfl
    | some slot => exact absurd (free (by rw [taken]; rfl)) (List.cons_ne_nil _ _)
  · exact List.length_eq_zero_iff.mp (Nat.le_zero.mp (Nat.le_of_succ_le_succ once))

/-- What is left fits when the slot of the first field is filled. -/
theorem Fits.tail (last : under own fields = []) (content : β)
    (fits : shape.Fits slots ((key, tree) :: fields) name field) :
    shape.Fits ((own, content) :: slots) fields name field := by
  by_cases same : own = name
  · subst same
    exact ⟨by rw [last]; exact nofun, by rw [last]; exact Nat.zero_le 1, fun _ => last⟩
  · obtain ⟨read, once, free⟩ := (fits_cons_other named same).mp fits
    refine ⟨read, once, ?_⟩
    rwa [slot?_cons_other (Ne.symm same)]

/-- The slots that are filled behind the first field hold what stands in it too. -/
theorem Fills.cons {content : β} (known : shape.field? own = some field')
    (fit : field'.read tree.value = .ok content) (last : under own fields = [])
    (found : shape.field? name = some field)
    (fills : shape.Fills ((own, content) :: slots) fields filled name field) :
    shape.Fills slots ((key, tree) :: fields) filled name field := by
  by_cases same : own = name
  · subst same
    obtain rfl : field' = field := Option.some.inj (known.symm.trans found)
    constructor
    · intro none
      rw [under_cons_self named] at none
      cases none
    · intro first content' one fit'
      rw [under_cons_self named] at one
      obtain rfl := (List.cons.inj one).1
      obtain rfl := Except.ok.inj (fit.symm.trans fit')
      rw [fills.kept last, slot?_cons_self]
  · obtain ⟨kept, put⟩ := (fills_cons_other named same).mpr fills
    refine ⟨fun none => ?_, put⟩
    rw [kept none, slot?_cons_other (Ne.symm same)]

end Step

/-- **The slots that the fields of an object fill**, when no name of the record occurs twice and
what stands under them fits. -/
theorem readFields_ok (keys : KeysAreTexts fields)
    (fits : ∀ name field, shape.field? name = some field → shape.Fits slots fields name field) :
    ∃ filled, shape.readFields slots (Tree.fieldValues fields) = .ok filled ∧
      ∀ name field, shape.field? name = some field →
        shape.Fills slots fields filled name field := by
  induction fields generalizing slots with
  | nil => exact ⟨slots, rfl, fun name field known => ⟨fun _ => rfl, nofun⟩⟩
  | cons head rest ih =>
    obtain ⟨key, tree⟩ := head
    obtain ⟨own, named⟩ := Option.isSome_iff_exists.mp (keys _ List.mem_cons_self)
    have laterKeys : KeysAreTexts rest :=
      fun field member => keys field (List.mem_cons_of_mem _ member)
    cases known : shape.field? own with
    | none =>
      have differ : ∀ name field, shape.field? name = some field → own ≠ name := by
        rintro name field found rfl
        cases known.symm.trans found
      obtain ⟨filled, read, fills⟩ := ih laterKeys fun name field found =>
        (fits_cons_other named (differ name field found)).mp (fits name field found)
      refine ⟨filled, ?_, fun name field found =>
        (fills_cons_other named (differ name field found)).mpr (fills name field found)⟩
      rw [readFields_cons named, known]
      exact read
    | some field =>
      obtain ⟨⟨content, fit⟩, free, last⟩ := (fits own field known).head named
      obtain ⟨filled, read, fills⟩ := ih laterKeys fun name field' found =>
        (fits name field' found).tail named last content
      refine ⟨filled, ?_, fun name field' found =>
        (fills name field' found).cons named known fit last found⟩
      rw [readFields_fit named known free fit]
      exact read

/-! ### Contents -/

/-- Values that are read one after another. -/
theorem mapM_ok_of_forall₂ {γ δ ε : Type} {read : γ → Except ε δ} {as : List γ} {bs : List δ}
    (each : List.Forall₂ (fun a b => read a = .ok b) as bs) : as.mapM read = .ok bs := by
  induction each with
  | nil => rfl
  | cons here later ih =>
    rw [List.mapM_cons, here, ih]
    rfl

/-- The contents of fields, read one after another. -/
theorem mapM_ok {γ δ ε : Type} {read : γ → Except ε δ} {xs : Vector γ n} {ys : Vector δ n}
    (each : ∀ (i : ℕ) (inside : i < n), read xs[i] = .ok ys[i]) : xs.mapM read = .ok ys := by
  have pointwise : List.Forall₂ (fun a b => read a = .ok b) xs.toList ys.toList := by
    rw [List.forall₂_iff_get]
    refine ⟨by simp, fun i inside inside' => ?_⟩
    have inside'' : i < n := by simpa using inside
    simpa using each i inside''
  have arrays : Vector.toArray <$> xs.mapM read = .ok ys.toArray := by
    rw [Vector.toArray_mapM, Array.mapM_eq_mapM_toList]
    show List.toArray <$> xs.toList.mapM read = _
    rw [mapM_ok_of_forall₂ pointwise]
    rfl
  cases done : xs.mapM read with
  | error problem =>
    rw [done] at arrays
    cases arrays
  | ok zs =>
    rw [done] at arrays
    rw [Vector.toArray_inj.mp (Except.ok.inj arrays)]

theorem content_of_slot (missing : String → Mismatch) {content' : β}
    (found : slot? filled field.name = some (field.name, content')) :
    content filled missing field = .ok content' := by
  unfold slot? at found
  unfold content
  rw [found]

theorem content_of_default (missing : String → Mismatch) {content' : β}
    (absent : slot? filled field.name = none) (default : field.default = some content') :
    content filled missing field = .ok content' := by
  unfold slot? at absent
  unfold content
  rw [absent, default]

/-- An entry whose key no other entry has is found under its key. -/
theorem find?_of_nodup {γ : Type} {key : γ → String} {xs : List γ} (nodup : (xs.map key).Nodup)
    {x : γ} (member : x ∈ xs) : (xs.find? fun y => key y == key x) = some x := by
  induction xs with
  | nil => exact absurd member List.not_mem_nil
  | cons y ys ih =>
    rw [List.map_cons, List.nodup_cons] at nodup
    rcases List.mem_cons.mp member with rfl | later
    · exact List.find?_cons_of_pos (beq_self_eq_true _)
    · have differ : ¬(key y == key x) = true := by
        rw [beq_iff_eq]
        intro same
        exact nodup.1 (same ▸ List.mem_map_of_mem later)
      exact (List.find?_cons_of_neg (p := fun z => key z == key x) differ).trans (ih nodup.2 later)

theorem field?_of_index (distinct : shape.Distinct) (i : ℕ) (inside : i < n) :
    shape.field? shape.fields[i].name = some shape.fields[i] :=
  find?_of_nodup distinct (by simp)

theorem index_of_field? (found : shape.field? name = some field) :
    ∃ (i : ℕ) (inside : i < n), shape.fields[i] = field ∧ field.name = name := by
  have named := List.find?_some found
  obtain ⟨i, inside, here⟩ := List.getElem_of_mem (List.mem_of_find?_eq_some found)
  have inside' : i < n := by simpa using inside
  exact ⟨i, inside', by simpa using here, beq_iff_eq.mp named⟩

/-- **A record is read from an object** with its fields in any order, among others. -/
theorem read_object (distinct : shape.Distinct) {contents : Vector β n}
    (keys : KeysAreTexts fields)
    (given : ∀ (i : ℕ) (inside : i < n),
      shape.fields[i].Given takeValue (under shape.fields[i].name fields) contents[i]) :
    shape.read (Tree.object fields).value = .ok contents := by
  have fits : ∀ name field, shape.field? name = some field → shape.Fits [] fields name field := by
    intro name field found
    obtain ⟨i, inside, rfl, rfl⟩ := index_of_field? found
    rcases given i inside with ⟨tree, one, fit⟩ | ⟨none, -⟩
    · refine ⟨fun other member => ?_, one ▸ Nat.le_refl 1, nofun⟩
      rw [one, List.mem_singleton] at member
      exact ⟨_, member ▸ fit⟩
    · exact ⟨by rw [none]; exact nofun, none ▸ Nat.zero_le 1, fun _ => none⟩
  obtain ⟨filled, run, full⟩ := readFields_ok keys fits
  rw [Tree.value, read, run]
  refine mapM_ok fun i inside => ?_
  have fills := full _ _ (field?_of_index distinct i inside)
  rcases given i inside with ⟨tree, one, fit⟩ | ⟨none, default⟩
  · exact content_of_slot _ (fills.put tree _ one fit)
  · exact content_of_default _ (fills.kept none) default

/-- **An object is refused for what does not fit in it**, or for something before that. -/
theorem read_object_refused (distinct : shape.Distinct) (keys : KeysAreTexts fields)
    (one : field ∈ shape.fields) (member : tree ∈ under field.name fields)
    (misfit : takeValue field.read tree = .error problem) :
    ∃ first, shape.read (Tree.object fields).value = .error first := by
  have known : shape.field? field.name = some field :=
    find?_of_nodup distinct (Vector.mem_toList_iff.mpr one)
  obtain ⟨first, refused⟩ : ∃ first, shape.readFields [] (Tree.fieldValues fields) = .error first :=
    readFields_refused keys known member misfit
  refine ⟨first, ?_⟩
  rw [Tree.value, read, refused]
  rfl

/-! ### Entries of an array -/

/-- Entries in the places of fields fill the slots of these fields. -/
theorem readItems_ok {items : List Tree} {all : List (Field Decoder β)} {contents : List β}
    (short : items.length ≤ all.length) (enough : all.length = contents.length)
    (fits : ∀ (i : ℕ) (inside : i < items.length),
      all[i].read items[i].value = .ok contents[i]) :
    readItems all (Tree.values items) =
      .ok (((all.map (·.name)).zip contents).take items.length) := by
  induction items generalizing all contents with
  | nil => cases all <;> rfl
  | cons tree rest ih =>
    obtain _ | ⟨field, all⟩ := all
    · cases short
    obtain _ | ⟨content, contents⟩ := contents
    · cases enough
    have here : field.read tree.value = .ok content := fits 0 (Nat.zero_lt_succ _)
    have later := ih (Nat.le_of_succ_le_succ short) (Nat.succ.inj enough) fun i inside =>
      fits (i + 1) (Nat.succ_lt_succ inside)
    rw [Tree.values, readItems, here]
    show Except.bind (readItems all (Tree.values rest)) _ = _
    rw [later]
    rfl

/-- **A record is read from an array** with its fields in order, which may end before fields that
have a default. -/
theorem read_array (distinct : shape.Distinct) {contents : Vector β n} {items : List Tree}
    (short : items.length ≤ n)
    (given : ∀ (i : ℕ) (inside : i < n),
      shape.fields[i].Given takeValue (items[i]?).toList contents[i]) :
    shape.read (Tree.array items).value = .ok contents := by
  have filled : readItems shape.fields.toList (Tree.values items) =
      .ok (((shape.fields.toList.map (·.name)).zip contents.toList).take items.length) := by
    refine readItems_ok (by simpa using short) (by simp) fun i inside => ?_
    have inside' : i < n := Nat.lt_of_lt_of_le inside short
    rcases given i inside' with ⟨tree, here, fit⟩ | ⟨none, -⟩
    · rw [List.getElem?_eq_getElem inside, Option.toList_some] at here
      obtain rfl := (List.cons.inj here).1
      simpa [takeValue] using fit
    · rw [List.getElem?_eq_getElem inside] at none
      cases none
  have firsts : (((shape.fields.toList.map (·.name)).zip contents.toList).take items.length).map
      Prod.fst = (shape.fields.toList.map (·.name)).take items.length := by
    rw [List.map_take, List.map_fst_zip]
    simp
  have nodup : ((((shape.fields.toList.map (·.name)).zip contents.toList).take
      items.length).map Prod.fst).Nodup := by
    rw [firsts]
    exact distinct.sublist (List.take_sublist _ _)
  rw [Tree.value, read, filled]
  refine mapM_ok fun i inside => ?_
  rcases given i inside with ⟨tree, here, fit⟩ | ⟨none, default⟩
  · rw [Option.toList_eq_singleton_iff] at here
    have filledHere : i < items.length := (List.getElem?_eq_some_iff.mp here).1
    have member : (shape.fields[i].name, contents[i]) ∈
        ((shape.fields.toList.map (·.name)).zip contents.toList).take items.length := by
      refine List.mem_take_iff_getElem.mpr ⟨i, ?_, ?_⟩
      · simp
        omega
      · simp
    exact content_of_slot _ (find?_of_nodup nodup member)
  · rw [Option.toList_eq_nil_iff] at none
    have empty : items.length ≤ i := List.getElem?_eq_none_iff.mp none
    refine content_of_default _ (List.find?_eq_none.mpr fun slot member same => ?_) default
    have early : slot.1 ∈ (shape.fields.toList.map (·.name)).take items.length := by
      rw [← firsts]
      exact List.mem_map_of_mem member
    obtain ⟨j, less, named⟩ := List.mem_take_iff_getElem.mp early
    have inside' : i < (shape.fields.toList.map (·.name)).length := by simpa using inside
    have twice : (shape.fields.toList.map (·.name))[j] =
        (shape.fields.toList.map (·.name))[i] := by
      rw [named]
      simpa using same
    have place := (distinct.getElem_inj_iff).mp twice
    omega

end Shape

end Easing.Json
