/-
**JSON values read as numbers and records.**

A record is an object with named fields or an array of its fields in order. A field that has a
default may be missing, in an array only after all others. Other fields of an object are skipped;
an array has no others. The first problem in the order of the text decides.

A number is read from the digits that make a whole number of sixty-four bits. The double of that
number is multiplied or divided by a power of ten, each rounded; so the double that is read need not
be the nearest one.

* `Mismatch.message`: the wording of what does not fit.
* `Number.read`: the value of a number.
* `Value.number?`, `Shape.read`, `Value.sequence`, `Value.word`: readers.
* `decode`: a reader applied to a whole text.
* `library`: these readers, and the text of a content.
-/
import Easing.Json.Library
import Easing.Json.Value
import Easing.Decimal.Layout
import Easing.Scalar.Binary64

namespace Easing.Json

/-- A value of another kind than the one expected. -/
inductive Found where
  | null
  | boolean (value : Bool)
  | integer (value : Int)
  | fraction (value : Float)
  | text (value : List Char)
  | sequence
  | map

/-- A JSON value that does not fit. -/
inductive Mismatch where
  | missingField (name : String)
  | duplicateField (name : String)
  | wrongType (found : Found) (expected : String)
  /-- Too few entries for a record of so many fields. -/
  | wrongLength (found : Nat) (record : String) (fields : Nat)
  | unknownWord (word : String) (expected : String)

/-- Why a text cannot be read. -/
inductive Problem where
  | fault (fault : Fault)
  | mismatch (mismatch : Mismatch)

/-- The result of reading. -/
abbrev Reading := Except Problem

/-! ### Wording -/

/-- The words for a value. -/
def Found.words : Found → String
  | .null => "null"
  | .boolean b => "boolean `" ++ (if b then "true" else "false") ++ "`"
  | .integer n => "integer `" ++ toString n ++ "`"
  | .fraction x => "floating point `" ++ Decimal.snapshotLayout.write x ++ "`"
  | .text cs => "string " ++ Text.quote cs
  | .sequence => "sequence"
  | .map => "map"

/-- The wording of what does not fit. -/
def Mismatch.message : Mismatch → String
  | .missingField name => "missing field `" ++ name ++ "`"
  | .duplicateField name => "duplicate field `" ++ name ++ "`"
  | .wrongType found expected => "invalid type: " ++ found.words ++ ", expected " ++ expected
  | .wrongLength found record fields =>
    "invalid length " ++ toString found ++ ", expected " ++ record ++ " with " ++
      toString fields ++ " elements"
  | .unknownWord word expected =>
    "unknown variant `" ++ word ++ "`, expected " ++ expected

/-! ### Numbers -/

/-- The whole numbers that are kept as such: sixty-four bits, with or without a sign. A negative
zero is none of them. -/
def isMachineInteger (negative : Bool) (n : Nat) : Bool :=
  if negative then 0 < n && n ≤ Nat.pow 2 63 else n < Nat.pow 2 64

/-- Puts digits behind a number while it has sixty-four bits; with the digits that are left. -/
def keepDigits (kept : Nat) : List Char → Nat × List Char
  | [] => (kept, [])
  | c :: rest =>
    let next := 10 * kept + (c.toNat - '0'.toNat)
    if next < Nat.pow 2 64 then keepDigits next rest else (kept, c :: rest)

/-- The exponent of the greatest power of ten that is at hand as a double. -/
def greatestPower : Nat := 308

/-- The double nearest to a power of ten. -/
def powerOfTen (exponent : Nat) : Float := Float.ofScientific 1 false exponent

/-- A double times a power of ten. There is none beyond all doubles. -/
def scaleUp? (value : Float) (exponent : Nat) : Option Float :=
  if exponent ≤ greatestPower then
    let product := value * powerOfTen exponent
    if Scalar.isFinite product then some product else none
  else if value == 0 then some value
  else none

/-- A double divided by a power of ten, after so many divisions by the greatest one as the exponent
allows, or until nothing is left. -/
def scaleDown (value : Float) (exponent : Nat) : Nat → Float
  | 0 => value / powerOfTen exponent
  | rounds + 1 =>
    if exponent ≤ greatestPower then value / powerOfTen exponent
    else if value == 0 then value
    else scaleDown (value / powerOfTen greatestPower) (exponent - greatestPower) rounds

/-- The size of a number. Digits of the whole part that are not kept count for the exponent, those
after the point for nothing. -/
def Number.size? (whole fraction : List Char) (exponent : Int) : Option Float :=
  let (front, left) := keepDigits 0 whole
  let (digits, dropped) := keepDigits front fraction
  let value := Float.ofNat digits
  let place : Int := left.length - (fraction.length - dropped.length) + exponent
  if 0 ≤ place then scaleUp? value place.toNat
  else some (scaleDown value place.natAbs (place.natAbs / greatestPower))

/-- The value of a number. One beyond all doubles is refused. -/
def Number.read : Number → Reading Float
  | .cut fault => .error (.fault fault)
  | .complete negative whole fraction exponent =>
    match Number.size? whole fraction (exponent.getD 0) with
    | some size => .ok (if negative then -size else size)
    | none => .error (.fault .malformed)

/-- A number as a value of the wrong kind. -/
def Number.found (number : Number) : Reading Found :=
  number.read.map fun value =>
    match number with
    | .complete negative whole [] .none =>
      let digits := Decimal.ofDigits whole
      if isMachineInteger negative digits then
        .integer (if negative then -(digits : Int) else digits)
      else .fraction value
    | _ => .fraction value

namespace Value

/-- A fault, as the problem of a reading. -/
def failed {β : Type} (fault : Fault) : Reading β := .error (.fault fault)

/-- What is found in the place of something else. A fault of the value comes first. -/
def found : Value → Reading Found
  | .null => .ok .null
  | .boolean b => .ok (.boolean b)
  | .number n => n.found
  | .text q =>
    match q.strict with
    | .ok cs => .ok (.text cs)
    | .error fault => failed fault
  | .array _ _ => .ok .sequence
  | .object .. => .ok .map
  | .cutWord fault => failed fault
  | .broken fault => failed fault

/-- Refuses a value of the wrong kind. -/
def refuse {β : Type} (value : Value) (expected : String) : Reading β :=
  value.found.bind fun found => .error (.mismatch (.wrongType found expected))

/-- Stops at a fault. -/
def stopAt (fault : Option Fault) : Reading Unit :=
  match fault with
  | some fault => failed fault
  | none => .ok ()

/-- Reads a number. -/
def number? : Value → Reading Float
  | .number n => n.read
  | value => value.refuse "f64"

/-- Reads a sequence, entry by entry. -/
def sequence {β : Type} (read : Value → Reading β) : Value → Reading (List β)
  | .array items ending => do
    let values ← items.mapM read
    stopAt ending
    return values
  | value => value.refuse "a sequence"

end Value

/-! ### Records -/

/-- A reader of values. -/
abbrev Decoder (β : Type) := Value → Reading β

namespace Shape

variable {β : Type} {n : Nat}

/-- The contents of fields that were read, under their names. -/
abbrev Slots (β : Type) := List (String × β)

/-- Reads fields from entries. There are no more entries than fields. -/
def readItems : List (Field Decoder β) → List Value → Reading (Slots β)
  | _, [] => .ok []
  | [], _ :: _ => Value.failed .malformed
  | field :: fields, value :: rest => do
    let content ← field.read value
    return (field.name, content) :: (← readItems fields rest)

/-- Reads named fields, with the slots that are filled so far. -/
def readFields (shape : Shape Decoder β n) :
    Slots β → List (Quoted × Value) → Reading (Slots β)
  | slots, [] => .ok slots
  | slots, (key, value) :: rest => do
    match key.strict with
    | .error fault => Value.failed fault
    | .ok name =>
      let name := String.ofList name
      match shape.fields.toList.find? fun field => field.name == name with
      | none =>
        Value.stopAt (value.skipFault?)
        readFields shape slots rest
      | some field =>
        if slots.any fun slot => slot.1 == name then
          .error (.mismatch (.duplicateField name))
        else
          let content ← field.read value
          readFields shape ((name, content) :: slots) rest

/-- The content of a field: its slot, or its default. -/
def content (slots : Slots β) (missing : String → Mismatch) (field : Field Decoder β) :
    Reading β :=
  match slots.find? fun slot => slot.1 == field.name with
  | some slot => .ok slot.2
  | none =>
    match field.default with
    | some value => .ok value
    | none => .error (.mismatch (missing field.name))

/-- Reads the fields of a record in order. -/
def read (shape : Shape Decoder β n) : Value → Reading (Vector β n)
  | .array items ending => do
    let slots ← readItems shape.fields.toList items
    Value.stopAt ending
    shape.fields.mapM (content slots fun _ => .wrongLength slots.length shape.name n)
  | .object fields ending _ => do
    let slots ← shape.readFields [] fields
    Value.stopAt ending
    shape.fields.mapM (content slots .missingField)
  | value => value.refuse shape.name

end Shape

/-! ### Words -/

/-- Reads one of some words: a text, or an object with the word as its only key and nothing in
it. -/
def Value.word {β : Type} (known : String → Option β) (expected : String) :
    Value → Reading β
  | .text q => ofQuoted q
  | .object [] _ (some stray) => stray.refuse "variant identifier"
  | .object ((key, value) :: rest) ending stray => do
    let word ← ofQuoted key
    match value with
    | .null =>
      Value.stopAt (if rest.isEmpty && stray.isNone then ending else some .malformed)
    | _ => value.refuse "unit"
    return word
  | .broken fault => Value.failed fault
  | _ => Value.failed .malformed
where
  /-- The meaning of a text that is one of the words. -/
  ofQuoted (q : Quoted) : Reading β :=
    match q.strict with
    | .error fault => Value.failed fault
    | .ok cs =>
      match known (String.ofList cs) with
      | some value => .ok value
      | none => .error (.mismatch (.unknownWord (String.ofList cs) expected))

/-! ### Whole texts -/

/-- Reads the value of a text, after which nothing may follow. -/
def decode {β : Type} (read : Value → Reading β) (text : String) : Reading β := do
  let document := Document.ofText text
  let value ← read document.value
  if document.trailing then Value.failed .malformed else return value

namespace Content

mutual

/-- The text of a content, without blanks. The names of fields are written as they are. -/
def text : Content → String
  | .number value => Numeral.snapshot value
  | .record fields => "\x7b" ++ String.intercalate "," (fieldTexts fields) ++ "\x7d"
  | .sequence items => "[" ++ String.intercalate "," (texts items) ++ "]"

/-- The texts of contents. -/
def texts : List Content → List String
  | [] => []
  | content :: rest => content.text :: texts rest

/-- The texts of fields: their names in quotes, and their contents. -/
def fieldTexts : List (String × Content) → List String
  | [] => []
  | (name, content) :: rest => ("\"" ++ name ++ "\":" ++ content.text) :: fieldTexts rest

end

end Content

/-- The library that the program uses. -/
def library : Library where
  Refusal := Problem
  Reader := Decoder
  number := Value.number?
  record := Shape.read
  sequence := Value.sequence
  read := decode
  write content := .ok content.text

end Easing.Json
