/-
**A snapshot is read back as the knots it was written from.**

A reader takes more texts than a writer makes. A record may be an object with its fields in any
order, among other fields of any value, or an array of its fields; a handle of length zero may be
left out; blanks may stand between all words. All texts that spell knots are read as these knots,
bit for bit. What is written spells them, unless a coordinate is not finite: then `null` stands in
its place, and is refused.

All this holds of every library that follows the rules, for coordinates whose printed numbers it
reads back.

* `SpellsPair`, `SpellsHandle`, `SpellsKnot`, `Spells`: the trees of knots.
* `take_pair`, `take_knot`, `readKnots_of_spells`: what is read from them.
* `spells_written`, `readKnots_of_infinite`: what is written, finite or not.
* `Path.restore_snapshot`: a path is restored from its snapshot.
-/
import Easing.Path.Reading
import Easing.Proofs.Json.Library
import Easing.Proofs.Path.Snapshot

set_option linter.unusedSectionVars false

namespace Easing

open Json (Tree NumberForm FieldTrees KeysAreTexts keyName? key keyName?_key under)

/-! ### Spellings -/

section Spellings

variable (printed : Float → NumberForm)

/-- Two coordinates stand as they are printed, under their names, in any order and among other
fields, or in an array. -/
inductive SpellsPair (x y : Float) : Tree → Prop where
  | object {fields : FieldTrees} (keys : KeysAreTexts fields)
      (isX : under "x" fields = [.number (printed x)])
      (isY : under "y" fields = [.number (printed y)]) : SpellsPair x y (.object fields)
  | array : SpellsPair x y (.array [.number (printed x), .number (printed y)])

/-- A handle is given, or it is left out: then both its coordinates are zeros without a minus. -/
inductive SpellsHandle (handle : Vec Float) : List Tree → Prop where
  | given {tree : Tree} (spells : SpellsPair printed handle.x handle.y tree) :
      SpellsHandle handle [tree]
  | missing (zeroX : handle.x = 0) (zeroY : handle.y = 0) : SpellsHandle handle []

/-- An anchor and its handles stand under their names, in any order and among other fields, or in
an array, in which nothing follows a handle that is left out. -/
inductive SpellsKnot (knot : Knot Float) : Tree → Prop where
  | object {fields : FieldTrees} {point : Tree} (keys : KeysAreTexts fields)
      (isPoint : under "point" fields = [point])
      (spellsPoint : SpellsPair printed knot.point.x knot.point.y point)
      (spellsIn : SpellsHandle printed knot.handleIn (under "handle_in" fields))
      (spellsOut : SpellsHandle printed knot.handleOut (under "handle_out" fields)) :
      SpellsKnot knot (.object fields)
  | array {point : Tree} {incoming outgoing : List Tree}
      (spellsPoint : SpellsPair printed knot.point.x knot.point.y point)
      (spellsIn : SpellsHandle printed knot.handleIn incoming)
      (spellsOut : SpellsHandle printed knot.handleOut outgoing)
      (order : incoming = [] → outgoing = []) :
      SpellsKnot knot (.array (point :: (incoming ++ outgoing)))

/-- Knots stand in an array, in their order. -/
def Spells (knots : List (Knot Float)) (tree : Tree) : Prop :=
  ∃ items, tree = .array items ∧ List.Forall₂ (SpellsKnot printed) knots items

end Spellings

/-! ### What spells knots is read as these knots -/

/-- The six coordinates of a knot. -/
def Knot.coordinates (knot : Knot Float) : List Float :=
  [knot.point.x, knot.point.y, knot.handleIn.x, knot.handleIn.y, knot.handleOut.x, knot.handleOut.y]

/-- All coordinates of a path. -/
def Path.coordinates (path : Path Float) : List Float := path.knots.flatMap Knot.coordinates

/-- The coordinates of a knot, as they are read. -/
def Knot.pairs (knot : Knot Float) : Vector (Vector Float 2) 3 :=
  #v[#v[knot.point.x, knot.point.y], #v[knot.handleIn.x, knot.handleIn.y],
    #v[knot.handleOut.x, knot.handleOut.y]]

theorem distinct_pairShape (json : Json.Library) (record : String) :
    (pairShape json record).Distinct := by
  show ["x", "y"].Nodup
  decide

theorem distinct_knotShape (json : Json.Library) : (knotShape json).Distinct := by
  show ["point", "handle_in", "handle_out"].Nodup
  decide

section Rules

variable {json : Json.Library} {printed : Float → NumberForm}
  {take : ∀ {β : Type}, ℕ → json.Reader β → Tree → Except json.Refusal β} {levels level : ℕ}
  {x y : Float} {handle : Vec Float} {knot : Knot Float} {knots : List (Knot Float)}
  {tree : Tree} {fields : FieldTrees} {name text : String}

section Reading

variable (documented : json.Documented printed take levels)

include documented

theorem take_pair (record : String) (backX : json.ReadsBack printed take x)
    (backY : json.ReadsBack printed take y) (spells : SpellsPair printed x y tree) :
    take (level + 1) (json.record (pairShape json record)) tree = .ok #v[x, y] := by
  cases spells with
  | object keys isX isY =>
    refine documented.object (distinct_pairShape json record) keys fun i inside => ?_
    interval_cases i
    · exact .inl ⟨_, isX, backX level⟩
    · exact .inl ⟨_, isY, backY level⟩
  | array =>
    refine documented.array (distinct_pairShape json record) (Nat.le_refl 2) fun i inside => ?_
    interval_cases i
    · exact .inl ⟨_, rfl, backX level⟩
    · exact .inl ⟨_, rfl, backY level⟩

/-- The field of a handle is given by what spells the handle. -/
theorem given_of_spells (name : String) {trees : List Tree}
    (backX : json.ReadsBack printed take handle.x) (backY : json.ReadsBack printed take handle.y)
    (spells : SpellsHandle printed handle trees) :
    Json.Field.Given (take (level + 1))
      ⟨name, json.record (pairShape json "struct Vec2"), some #v[0, 0]⟩ trees
      #v[handle.x, handle.y] := by
  cases spells with
  | given spells => exact .inl ⟨_, rfl, take_pair documented _ backX backY spells⟩
  | missing zeroX zeroY =>
    rw [zeroX, zeroY]
    exact .inr ⟨rfl, rfl⟩

omit documented in
/-- In an array the handles that were not left out stand one after the other. -/
theorem places_of_spells {handle' : Vec Float} {incoming outgoing : List Tree}
    (spellsIn : SpellsHandle printed handle incoming)
    (spellsOut : SpellsHandle printed handle' outgoing) (order : incoming = [] → outgoing = []) :
    (incoming ++ outgoing)[0]?.toList = incoming ∧ (incoming ++ outgoing)[1]?.toList = outgoing ∧
      (incoming ++ outgoing).length ≤ 2 := by
  cases spellsIn with
  | given => cases spellsOut <;> exact ⟨rfl, rfl, by simp⟩
  | missing =>
    rw [order rfl]
    exact ⟨rfl, rfl, by simp⟩

theorem take_knot (back : ∀ x ∈ knot.coordinates, json.ReadsBack printed take x)
    (spells : SpellsKnot printed knot tree) :
    take (level + 2) (json.record (knotShape json)) tree = .ok knot.pairs := by
  have backPoint := And.intro (back knot.point.x (by simp [Knot.coordinates]))
    (back knot.point.y (by simp [Knot.coordinates]))
  have backIn := And.intro (back knot.handleIn.x (by simp [Knot.coordinates]))
    (back knot.handleIn.y (by simp [Knot.coordinates]))
  have backOut := And.intro (back knot.handleOut.x (by simp [Knot.coordinates]))
    (back knot.handleOut.y (by simp [Knot.coordinates]))
  cases spells with
  | object keys isPoint spellsPoint spellsIn spellsOut =>
    refine documented.object (distinct_knotShape json) keys fun i inside => ?_
    interval_cases i
    · exact .inl ⟨_, isPoint, take_pair documented _ backPoint.1 backPoint.2 spellsPoint⟩
    · exact given_of_spells documented _ backIn.1 backIn.2 spellsIn
    · exact given_of_spells documented _ backOut.1 backOut.2 spellsOut
  | @array point incoming outgoing spellsPoint spellsIn spellsOut order =>
    obtain ⟨first, second, short⟩ := places_of_spells spellsIn spellsOut order
    refine documented.array (distinct_knotShape json) (Nat.succ_le_succ short) fun i inside => ?_
    interval_cases i
    · exact .inl ⟨_, rfl, take_pair documented _ backPoint.1 backPoint.2 spellsPoint⟩
    · show Json.Field.Given _ _ (incoming ++ outgoing)[0]?.toList _
      rw [first]
      exact given_of_spells documented _ backIn.1 backIn.2 spellsIn
    · show Json.Field.Given _ _ (incoming ++ outgoing)[1]?.toList _
      rw [second]
      exact given_of_spells documented _ backOut.1 backOut.2 spellsOut

end Reading

/-- **Every text that spells knots is read as these knots.** -/
theorem readKnots_of_spells (documented : json.Documented printed take (levels + 3))
    (back : ∀ knot ∈ knots, ∀ x ∈ knot.coordinates, json.ReadsBack printed take x)
    (spells : Spells printed knots tree) (isText : tree.IsText text) :
    readKnots json text = .ok knots := by
  obtain ⟨items, rfl, each⟩ := spells
  have read : List.Forall₂ (fun item pairs =>
      take (levels + 2) (json.record (knotShape json)) item = .ok pairs) items
      (knots.map Knot.pairs) := by
    rw [List.forall₂_map_right_iff]
    exact ((List.forall₂_and_left knots items).mpr ⟨back, each⟩).flip.imp fun _ _ both =>
      take_knot documented both.1 both.2
  unfold readKnots
  rw [documented.text _ isText, documented.sequence read]
  show Except.ok ((knots.map Knot.pairs).map Knot.ofPairs) = _
  rw [List.map_map]
  exact congrArg Except.ok (List.map_id knots)

/-! ### What is written -/

variable (printed) in
/-- What is written for knots. -/
def writtenTree (knots : List (Knot Float)) : Tree :=
  (Json.Content.sequence (knots.map Knot.content)).tree printed

theorem writtenTree_eq (knots : List (Knot Float)) :
    writtenTree printed knots = .array (knots.map fun knot => knot.content.tree printed) := by
  have items : Json.Content.trees printed (knots.map Knot.content) =
      knots.map fun knot => knot.content.tree printed := by
    induction knots with
    | nil => rfl
    | cons knot rest ih => rw [List.map_cons, Json.Content.trees, ih, List.map_cons]
  rw [writtenTree, Json.Content.tree, items]

theorem isPlain_content (knots : List (Knot Float)) :
    (Json.Content.sequence (knots.map Knot.content)).IsPlain := by
  show Json.Content.AllArePlain (knots.map Knot.content)
  induction knots with
  | nil => trivial
  | cons knot rest ih =>
    refine ⟨?_, ih⟩
    simp [Knot.content, pairContent, Json.Content.IsPlain, Json.Content.FieldsArePlain,
      Json.IsPlain]

/-- The names of the fields that are written. -/
theorem keyName?_written {name : String}
    (written : name ∈ ["x", "y", "point", "handle_in", "handle_out"]) :
    keyName? (key name) = some name := by
  refine keyName?_key ?_
  simp only [List.mem_cons, List.not_mem_nil, or_false] at written
  rcases written with rfl | rfl | rfl | rfl | rfl <;> simp [Json.IsPlain]

theorem tree_number (finite : Scalar.isFinite x = true) :
    (Json.Content.number x).tree printed = .number (printed x) := by
  rw [Json.Content.tree, if_pos finite]

/-- The fields of a pair that is written. -/
def pairFields (first second : Tree) : FieldTrees := [(key "x", first), (key "y", second)]

/-- The fields of a knot that is written. -/
def knotFields (point incoming outgoing : Tree) : FieldTrees :=
  [(key "point", point), (key "handle_in", incoming), (key "handle_out", outgoing)]

section Fields

variable {first second third : Tree}

theorem keys_pairFields : KeysAreTexts (pairFields first second) := by
  simp [pairFields, KeysAreTexts, keyName?_written]

theorem under_pairFields : under "x" (pairFields first second) = [first] ∧
    under "y" (pairFields first second) = [second] := by
  simp [pairFields, under, keyName?_written]

theorem keys_knotFields : KeysAreTexts (knotFields first second third) := by
  simp [knotFields, KeysAreTexts, keyName?_written]

theorem under_knotFields : under "point" (knotFields first second third) = [first] ∧
    under "handle_in" (knotFields first second third) = [second] ∧
    under "handle_out" (knotFields first second third) = [third] := by
  simp [knotFields, under, keyName?_written]

end Fields

theorem tree_pairContent (x y : Float) : (pairContent x y).tree printed =
    .object (pairFields ((Json.Content.number x).tree printed)
      ((Json.Content.number y).tree printed)) := rfl

theorem tree_content (knot : Knot Float) : knot.content.tree printed =
    .object (knotFields ((pairContent knot.point.x knot.point.y).tree printed)
      ((pairContent knot.handleIn.x knot.handleIn.y).tree printed)
      ((pairContent knot.handleOut.x knot.handleOut.y).tree printed)) := rfl

theorem spells_pairContent (finiteX : Scalar.isFinite x = true)
    (finiteY : Scalar.isFinite y = true) :
    SpellsPair printed x y ((pairContent x y).tree printed) := by
  rw [tree_pairContent, tree_number finiteX, tree_number finiteY]
  exact .object keys_pairFields under_pairFields.1 under_pairFields.2

theorem spells_content (finite : knot.IsFinite) :
    SpellsKnot printed knot (knot.content.tree printed) := by
  rw [tree_content]
  refine .object keys_knotFields under_knotFields.1 (spells_pairContent finite.x finite.y) ?_ ?_
  · rw [under_knotFields.2.1]
    exact .given (spells_pairContent finite.inX finite.inY)
  · rw [under_knotFields.2.2]
    exact .given (spells_pairContent finite.outX finite.outY)

/-- **What is written for finite knots spells them.** -/
theorem spells_written (finite : ∀ knot ∈ knots, knot.IsFinite) :
    Spells printed knots (writtenTree printed knots) := by
  refine ⟨_, writtenTree_eq knots, ?_⟩
  rw [List.forall₂_map_right_iff, List.forall₂_same]
  exact fun knot member => spells_content (finite knot member)

section Refusing

variable (documented : json.Documented printed take levels)

include documented

theorem number_refused (infinite : ¬Scalar.isFinite x = true) :
    ∃ refusal, take level json.number ((Json.Content.number x).tree printed) = .error refusal := by
  rw [Json.Content.tree, if_neg infinite]
  exact documented.null level

theorem pair_refused (record : String)
    (infinite : ¬(Scalar.isFinite x = true ∧ Scalar.isFinite y = true)) :
    ∃ refusal, take (level + 1) (json.record (pairShape json record))
      ((pairContent x y).tree printed) = .error refusal := by
  have distinct := distinct_pairShape json record
  rw [tree_pairContent]
  rcases not_and_or.mp infinite with own | own
  · obtain ⟨reason, misfit⟩ := number_refused documented own
    exact documented.object_refused distinct keys_pairFields 0 (by decide) under_pairFields.1 misfit
  · obtain ⟨reason, misfit⟩ := number_refused documented own
    exact documented.object_refused distinct keys_pairFields 1 (by decide) under_pairFields.2 misfit

theorem knot_refused (infinite : ¬knot.IsFinite) :
    ∃ refusal, take (level + 2) (json.record (knotShape json)) (knot.content.tree printed) =
      .error refusal := by
  have distinct := distinct_knotShape json
  rw [tree_content]
  by_cases point : Scalar.isFinite knot.point.x = true ∧ Scalar.isFinite knot.point.y = true
  · by_cases incoming : Scalar.isFinite knot.handleIn.x = true ∧
        Scalar.isFinite knot.handleIn.y = true
    · have outgoing : ¬(Scalar.isFinite knot.handleOut.x = true ∧
          Scalar.isFinite knot.handleOut.y = true) := fun outgoing => infinite
        ⟨point.1, point.2, incoming.1, incoming.2, outgoing.1, outgoing.2⟩
      obtain ⟨reason, misfit⟩ := pair_refused documented "struct Vec2" outgoing
      exact documented.object_refused distinct keys_knotFields 2 (by decide)
        under_knotFields.2.2 misfit
    · obtain ⟨reason, misfit⟩ := pair_refused documented "struct Vec2" incoming
      exact documented.object_refused distinct keys_knotFields 1 (by decide)
        under_knotFields.2.1 misfit
  · obtain ⟨reason, misfit⟩ := pair_refused documented "struct Point" point
    exact documented.object_refused distinct keys_knotFields 0 (by decide) under_knotFields.1 misfit

end Refusing

/-- **What is written for a coordinate that is not finite is refused.** -/
theorem readKnots_of_infinite (documented : json.Documented printed take (levels + 3))
    (infinite : ¬∀ knot ∈ knots, knot.IsFinite)
    (isText : (writtenTree printed knots).IsText text) :
    ∃ refusal, readKnots json text = .error refusal := by
  obtain ⟨knot, member, own⟩ : ∃ knot ∈ knots, ¬knot.IsFinite := by
    simpa only [not_forall, exists_prop] using infinite
  obtain ⟨reason, misfit⟩ : ∃ reason, take (levels + 2) (json.record (knotShape json))
      (knot.content.tree printed) = .error reason := knot_refused documented own
  rw [writtenTree_eq] at isText
  have entry : knot.content.tree printed ∈ knots.map fun knot => knot.content.tree printed :=
    List.mem_map_of_mem member
  obtain ⟨refusal, refused⟩ := documented.sequence_refused entry misfit
  refine ⟨refusal, ?_⟩
  unfold readKnots
  rw [documented.text _ isText, refused]
  rfl

/-! ### Paths -/

namespace Path

theorem knots_ofKnots (supply : IdSupply) (knots : List (Knot Float)) (domain : Float) :
    (ofKnots supply knots domain).1.knots = knots := by
  show (identify supply knots).1.map (·.toKnot) = knots
  induction knots generalizing supply with
  | nil => rfl
  | cons knot rest ih => exact congrArg (knot :: ·) (ih _)

variable (json) in
/-- A path over the domain is restored from the text: it has the knots of the given path, and the
same fingerprint. -/
def Restores (supply : IdSupply) (text : String) (domain : Float) (path : Path Float) : Prop :=
  ∃ restored later, restore json supply text domain = .ok (restored, later) ∧
    restored.domain = domain ∧ restored.knots = path.knots ∧
    restored.fingerprint json = path.fingerprint json

theorem restores_of_readKnots {path : Path Float} (read : readKnots json text = .ok path.knots)
    (supply : IdSupply) (domain : Float) : Restores json supply text domain path := by
  have same := knots_ofKnots supply path.knots domain
  refine ⟨(ofKnots supply path.knots domain).1, (ofKnots supply path.knots domain).2, ?_, rfl, same,
    ?_⟩
  · unfold restore
    rw [read]
    rfl
  · unfold fingerprint toJson
    rw [same]

/-- **A path is restored from its snapshot, and from every other spelling of its knots**, bit for
bit and in order, whatever the domain; then its fingerprint is the same again. The snapshot of a
path with a coordinate that is not finite is refused. This holds of every library that follows the
rules of reading and writing, three levels deep, for coordinates whose printed numbers it reads
back. -/
theorem restore_snapshot (documented : json.Documented printed take (levels + 3))
    (path : Path Float) (supply : IdSupply) (domain : Float) :
    ∃ snapshot, path.toJson json = .ok snapshot ∧
      (path.IsFinite → (∀ x ∈ path.coordinates, json.ReadsBack printed take x) →
        Restores json supply snapshot domain path ∧
        ∀ tree text, Spells printed path.knots tree → tree.IsText text →
          Restores json supply text domain path) ∧
      (¬path.IsFinite → ∃ refusal, restore json supply snapshot domain = .error refusal) := by
  obtain ⟨snapshot, written, isText⟩ := documented.written _ (isPlain_content path.knots)
  have restores : (∀ x ∈ path.coordinates, json.ReadsBack printed take x) →
      ∀ tree text, Spells printed path.knots tree → tree.IsText text →
        Restores json supply text domain path := by
    intro back tree text spells isText
    refine restores_of_readKnots (readKnots_of_spells documented ?_ spells isText) supply domain
    exact fun knot member x inside => back x (List.mem_flatMap.mpr ⟨knot, member, inside⟩)
  refine ⟨snapshot, written, fun finite back => ?_, fun infinite => ?_⟩
  · exact ⟨restores back _ _ (spells_written finite) isText, restores back⟩
  · obtain ⟨refusal, refused⟩ := readKnots_of_infinite documented infinite isText
    refine ⟨refusal, ?_⟩
    unfold restore
    rw [refused]
    rfl

end Path

end Rules

/-! ### The library of the program -/

open Json (printedForm takeValue library library_documented)

/-- A number is read back when its text is. -/
theorem readsBack_of_snapshot {x : Float} (finite : Scalar.isFinite x = true)
    (back : (Json.decode Json.Value.number? (Numeral.snapshot x)).toOption.any (Scalar.same x) =
      true) : library.ReadsBack printedForm (fun _ => takeValue) x := by
  intro level
  have isText : (Tree.number (printedForm x)).IsText (Numeral.snapshot x) := by
    unfold Tree.IsText
    rw [Tree.words, ← Json.text_printedForm finite]
    simpa using Json.Spaced.flatten [(printedForm x).text]
  have read : Json.decode Json.Value.number? (Numeral.snapshot x) =
      takeValue Json.Value.number? (.number (printedForm x)) :=
    (library_documented 0).text Json.Value.number? isText
  rw [read] at back
  show takeValue Json.Value.number? (.number (printedForm x)) = .ok x
  cases taken : takeValue Json.Value.number? (.number (printedForm x)) with
  | error problem =>
    rw [taken] at back
    cases back
  | ok y =>
    rw [taken] at back
    rw [Binary64.toBits_injective (eq_of_beq back)]

/-- Not every double is read back: this one becomes the double beside it. -/
example : (Json.decode Json.Value.number? (Numeral.snapshot 0.9452706955539223)).toOption.any
    (Scalar.same 0.9452706955539224) = true := by
  decide +kernel

theorem text_content (knot : Knot Float) : knot.content.text = knot.snapshot := by
  refine String.toList_inj.mp ?_
  simp [Knot.content, pairContent, Json.Content.text, Json.Content.fieldTexts, Knot.snapshot,
    coordinatesText]

/-- What the library of the program writes is the snapshot of the path. -/
theorem toJson_library (path : Path Float) : path.toJson library = .ok path.snapshot := by
  have texts : Json.Content.texts (path.knots.map Knot.content) = path.knots.map Knot.snapshot := by
    induction path.knots with
    | nil => rfl
    | cons knot rest ih =>
      rw [List.map_cons, Json.Content.texts, text_content, ih, List.map_cons]
  show Except.ok (Json.Content.text (.sequence (path.knots.map Knot.content))) = _
  rw [Json.Content.text, texts]
  rfl

/-! ### One path -/

namespace Path

/-- The path of one anchor at `(0, y)`, with a handle towards the anchor before. -/
def leaning (y : Float) : Path Float := ⟨[⟨⟨⟨0, y⟩, ⟨0.1, -0.0⟩, ⟨0, 0⟩⟩, ⟨7⟩⟩], 1⟩

/-- Its knot with the fields in another order, after a field of another name, and without the
handle of no length. -/
noncomputable def leaningTree : Tree :=
  .array [.object [(key "note", .array [.null]),
    (key "handle_in", .array [.number (printedForm 0.1), .number (printedForm (-0.0))]),
    (key "point", .object [(key "y", .number (printedForm 1)), (key "x", .number (printedForm 0))])]]

theorem spells_leaningTree : Spells printedForm (leaning 1).knots leaningTree := by
  have note : keyName? (key "note") = some "note" := keyName?_key (by simp [Json.IsPlain])
  have point : SpellsPair printedForm 0 1
      (.object [(key "y", .number (printedForm 1)), (key "x", .number (printedForm 0))]) := by
    refine .object ?_ ?_ ?_
    · simp [KeysAreTexts, keyName?_written]
    · simp [under, keyName?_written]
    · simp [under, keyName?_written]
  refine ⟨_, rfl, .cons (.object ?_ ?_ point ?_ ?_) .nil⟩
  · simp [KeysAreTexts, note, keyName?_written]
  · simp [under, note, keyName?_written]
  · simpa [under, note, keyName?_written] using SpellsHandle.given .array
  · simpa [under, note, keyName?_written] using SpellsHandle.missing rfl rfl

/-- A text of this tree, with blanks before its first word. -/
def leaningText : String :=
  "\n [\x7b\"note\":[null],\"handle_in\":[0.1,-0.0],\"point\":\x7b\"y\":1.0,\"x\":0.0\x7d\x7d]"

theorem isText_leaningTree : leaningTree.IsText leaningText := by
  have zero : (printedForm 0).text = ['0', '.', '0'] :=
    (Json.text_printedForm (by decide +kernel)).trans (by decide +kernel)
  have one : (printedForm 1).text = ['1', '.', '0'] :=
    (Json.text_printedForm (by decide +kernel)).trans (by decide +kernel)
  have tenth : (printedForm 0.1).text = ['0', '.', '1'] :=
    (Json.text_printedForm (by decide +kernel)).trans (by decide +kernel)
  have minus : (printedForm (-0.0)).text = ['-', '0', '.', '0'] :=
    (Json.text_printedForm (by decide +kernel)).trans (by decide +kernel)
  have blank : ∀ c ∈ ['\n', ' '], Json.isBlank c = true := by simp [Json.isBlank]
  have words : leaningTree.words = ['['] :: leaningTree.words.tail := by
    unfold leaningTree
    rw [Tree.words]
    rfl
  have text : leaningText.toList = ['\n', ' '] ++ (['['] ++ leaningTree.words.tail.flatten) := by
    unfold leaningText leaningTree key
    simp only [Tree.words, Tree.itemWords, Tree.fieldWords, Json.quotedText, zero, one, tenth,
      minus]
    rw [Json.text_plainLetters (by simp [Json.IsPlain]),
      Json.text_plainLetters (by simp [Json.IsPlain]),
      Json.text_plainLetters (by simp [Json.IsPlain]),
      Json.text_plainLetters (by simp [Json.IsPlain]),
      Json.text_plainLetters (by simp [Json.IsPlain])]
    simp
  unfold Tree.IsText
  rw [text, words]
  exact .cons blank (Json.Spaced.flatten _)

/-- Its coordinates are read back from their texts. -/
theorem readsBack_leaning :
    ∀ x ∈ (leaning 1).coordinates, library.ReadsBack printedForm (fun _ => takeValue) x := by
  have checked : ∀ x ∈ (leaning 1).coordinates, Scalar.isFinite x = true ∧
      (Json.decode Json.Value.number? (Numeral.snapshot x)).toOption.any (Scalar.same x) = true := by
    decide +kernel
  exact fun x member => readsBack_of_snapshot (checked x member).1 (checked x member).2

/-- The texts of an anchor with its fields in order and in another one, and of an anchor at an
infinite height. -/
theorem restores_leaning :
    library.Documented printedForm (fun _ => takeValue) (124 + 3) ∧
      (leaning 1).IsFinite ∧
      (∀ x ∈ (leaning 1).coordinates, library.ReadsBack printedForm (fun _ => takeValue) x) ∧
      (leaning 1).toJson library = .ok (leaning 1).snapshot ∧
      Restores library .initial (leaning 1).snapshot 2 (leaning 1) ∧
      Restores library .initial leaningText 2 (leaning 1) ∧
      ¬(leaning (1 / 0)).IsFinite ∧
      ∃ refusal, restore library .initial (leaning (1 / 0)).snapshot 1 = .error refusal := by
  have finite : (leaning 1).IsFinite := by
    have knots : ∀ knot ∈ (leaning 1).knots, knot.IsFinite := by decide +kernel
    exact knots
  have infinite : ¬(leaning (1 / 0)).IsFinite := by
    have knots : ¬∀ knot ∈ (leaning (1 / 0)).knots, knot.IsFinite := by decide +kernel
    exact knots
  have documented := library_documented (124 + 3)
  obtain ⟨snapshot, written, restored, -⟩ := restore_snapshot documented (leaning 1) .initial 2
  obtain rfl := Except.ok.inj (written.symm.trans (toJson_library _))
  obtain ⟨own, others⟩ := restored finite readsBack_leaning
  obtain ⟨snapshot, written', -, refused⟩ :=
    restore_snapshot documented (leaning (1 / 0)) .initial 1
  obtain rfl := Except.ok.inj (written'.symm.trans (toJson_library _))
  exact ⟨documented, finite, readsBack_leaning, written, own,
    others _ _ spells_leaningTree isText_leaningTree, infinite, refused infinite⟩

end Path

end Easing
