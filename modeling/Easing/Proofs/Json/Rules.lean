/-
**The rules of reading and writing JSON.**

A library says of its records and sequences how they are read from a JSON text and written to one.
The fields of a record may stand in any order, between fields of other names that hold any value,
or in an array in order; a field with a default may be missing, in an array at the end. What does
not fit is refused, and with it all that it is a part of. A double that is not finite is written as
`null`, which is no number. Arrays and objects are read in one another to some depth; a value that
is skipped may be of any.

* `keyName?`, `under`: the names of keys, and the trees under a name.
* `Field.Given`: what stands for a field.
* `Content.tree`: what is written for a content.
* `Library.Documented`: the rules, of a library that prints and takes numbers in its own way.
-/
import Easing.Json.Library
import Easing.Proofs.Json.Grammar

namespace Easing.Json

/-! ### Names -/

/-- The fields of an object as they are written: a key and a tree each. -/
abbrev FieldTrees := List (List Letter × Tree)

/-- The name that a key spells; none when half of a surrogate pair stands alone in it. -/
def keyName? (key : List Letter) : Option String :=
  match (quoted key).strict with
  | .ok characters => some (String.ofList characters)
  | .error _ => none

/-- Every key is a text. A text has no half of a surrogate pair alone in it. -/
def KeysAreTexts (fields : FieldTrees) : Prop :=
  ∀ field ∈ fields, (keyName? field.1).isSome = true

/-- The trees under a name, in order. -/
def under (name : String) (fields : FieldTrees) : List Tree :=
  (fields.filter fun field => keyName? field.1 = some name).map (·.2)

/-- A key without escapes. -/
def key (name : String) : List Letter := plainLetters name.toList

theorem keyName?_key {name : String} (plain : ∀ c ∈ name.toList, IsPlain c) :
    keyName? (key name) = some name := by
  unfold keyName? key
  rw [strict_plainLetters plain]
  exact congrArg some String.ofList_toList

/-! ### Reading -/

/-- The fields of the record have different names. -/
def Shape.Distinct {Reader : Type → Type} {β : Type} {n : ℕ} (shape : Shape Reader β n) : Prop :=
  (shape.fields.toList.map (·.name)).Nodup

/-- A field is given by the one tree that stands for it, and fits, or nothing stands for it and it
has a default. -/
def Field.Given {Reader : Type → Type} {β ε : Type} (take : Reader β → Tree → Except ε β)
    (field : Field Reader β) (trees : List Tree) (content : β) : Prop :=
  (∃ tree, trees = [tree] ∧ take field.read tree = .ok content) ∨
    trees = [] ∧ field.default = some content

/-! ### Writing -/

namespace Content

variable (printed : Float → NumberForm)

mutual

/-- What is written for a content. -/
def tree : Content → Tree
  | .number value => if Scalar.isFinite value then .number (printed value) else .null
  | .record fields => .object (fieldTrees fields)
  | .sequence items => .array (trees items)

/-- What is written for contents. -/
def trees : List Content → List Tree
  | [] => []
  | content :: rest => tree content :: trees rest

/-- What is written for fields: a key and the content each. -/
def fieldTrees : List (String × Content) → FieldTrees
  | [] => []
  | (name, content) :: rest => (key name, tree content) :: fieldTrees rest

end

mutual

/-- No name in the content needs an escape. -/
def IsPlain : Content → Prop
  | .number _ => True
  | .record fields => FieldsArePlain fields
  | .sequence items => AllArePlain items

/-- No name in the contents needs an escape. -/
def AllArePlain : List Content → Prop
  | [] => True
  | content :: rest => IsPlain content ∧ AllArePlain rest

/-- No name of the fields or in them needs an escape. -/
def FieldsArePlain : List (String × Content) → Prop
  | [] => True
  | (name, content) :: rest =>
    (∀ c ∈ name.toList, Json.IsPlain c) ∧ IsPlain content ∧ FieldsArePlain rest

end

end Content

/-! ### The rules -/

/-- The rules of a library. It prints a finite double as a JSON number, and a reader takes a value
in which so many arrays and objects may still be read, one in another. -/
structure Library.Documented (json : Library) (printed : Float → NumberForm)
    (take : ∀ {β : Type}, ℕ → json.Reader β → Tree → Except json.Refusal β) (levels : ℕ) :
    Prop where
  /-- A text is read as the value that it is a text of, whatever blanks stand in it. -/
  text : ∀ {β : Type} (reader : json.Reader β) {tree : Tree} {text : String}, tree.IsText text →
    json.read reader text = take levels reader tree
  null : ∀ level, ∃ refusal, take level json.number .null = .error refusal
  sequence : ∀ {β : Type} {reader : json.Reader β} {level : ℕ} {items : List Tree}
    {values : List β}, List.Forall₂ (fun item value => take level reader item = .ok value) items
      values → take (level + 1) (json.sequence reader) (.array items) = .ok values
  sequence_refused : ∀ {β : Type} {reader : json.Reader β} {level : ℕ} {items : List Tree}
    {item : Tree} {reason : json.Refusal}, item ∈ items → take level reader item = .error reason →
      ∃ refusal, take (level + 1) (json.sequence reader) (.array items) = .error refusal
  object : ∀ {β : Type} {n level : ℕ} {shape : Shape json.Reader β n} {fields : FieldTrees}
    {contents : Vector β n}, shape.Distinct → KeysAreTexts fields →
      (∀ (i : ℕ) (inside : i < n),
        shape.fields[i].Given (take level) (under shape.fields[i].name fields) contents[i]) →
      take (level + 1) (json.record shape) (.object fields) = .ok contents
  object_refused : ∀ {β : Type} {n level : ℕ} {shape : Shape json.Reader β n}
    {fields : FieldTrees} {tree : Tree} {reason : json.Refusal}, shape.Distinct →
      KeysAreTexts fields → ∀ (i : ℕ) (inside : i < n), under shape.fields[i].name fields = [tree] →
      take level shape.fields[i].read tree = .error reason →
      ∃ refusal, take (level + 1) (json.record shape) (.object fields) = .error refusal
  array : ∀ {β : Type} {n level : ℕ} {shape : Shape json.Reader β n} {items : List Tree}
    {contents : Vector β n}, shape.Distinct → items.length ≤ n →
      (∀ (i : ℕ) (inside : i < n),
        shape.fields[i].Given (take level) (items[i]?).toList contents[i]) →
      take (level + 1) (json.record shape) (.array items) = .ok contents
  written : ∀ content : Content, content.IsPlain →
    ∃ text, json.write content = .ok text ∧ (content.tree printed).IsText text

/-- The number that is printed for a double is read back as this double. -/
def Library.ReadsBack (json : Library) (printed : Float → NumberForm)
    (take : ∀ {β : Type}, ℕ → json.Reader β → Tree → Except json.Refusal β) (x : Float) : Prop :=
  ∀ level, take level json.number (.number (printed x)) = .ok x

end Easing.Json
