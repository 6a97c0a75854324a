/-
**JSON values, also of texts that are not JSON.**

Every text has a value. Where the text stops being JSON the value has a broken part, and every
array or object around that part ends with the same fault. What reads a value goes through it in
the order of the text, so it meets the first fault first.

* `Value`: the values.
* `Document.ofText`: the value of a text.
* `Value.skipFault?`: the first fault of a value that is skipped.
-/
import Easing.Json.Token

namespace Easing.Json

/-- A value, as far as it is there. -/
inductive Value where
  | null
  | boolean (value : Bool)
  | number (value : Number)
  | text (value : Quoted)
  /-- A word that stops in the middle. -/
  | cutWord (fault : Fault)
  /-- The entries, and what is wrong after them. -/
  | array (items : List Value) (ending : Option Fault)
  /-- The fields, what is wrong after them, and what stands there in the place of a key. -/
  | object (fields : List (Quoted × Value)) (ending : Option Fault) (stray : Option Value)
  /-- Nothing that begins a value. -/
  | broken (fault : Fault)

/-- The value of a text. -/
structure Document where
  value : Value
  /-- Something follows the value. -/
  trailing : Bool

/-! ### From tokens to values -/

/-- An array or object that is still open: the entries in reverse, with the key of the next one. -/
inductive Frame where
  | array (done : List Value)
  | object (done : List (Quoted × Value)) (key : Quoted)

/-- What comes next. -/
inductive Expecting where
  | value
  /-- An entry, or the end of an array that has none yet. -/
  | firstItem
  /-- A key, or the end of an object that has none yet. -/
  | firstKey
  | key (done : List (Quoted × Value))
  | colon (done : List (Quoted × Value)) (key : Quoted)
  /-- What goes on after a whole value. -/
  | after (value : Value)

/-- The value of an open array or object whose last entry is the given one. -/
def Frame.cut (fault : Fault) (last : Value) : Frame → Value
  | .array done => .array (last :: done).reverse (some fault)
  | .object done key => .object ((key, last) :: done).reverse (some fault) none

/-- The value when the text stops being JSON inside the given one. -/
def unwind (fault : Fault) (frames : List Frame) (last : Value) : Document :=
  ⟨frames.foldl (fun value frame => frame.cut fault value) last, false⟩

/-- The value that a token is or begins. -/
def leadingValue : Token → Value
  | .null => .null
  | .boolean b => .boolean b
  | .number n => .number n
  | .text q => .text q
  | .openArray => .array [] (some .malformed)
  | .openObject => .object [] (some .malformed) none
  | .cutWord fault => .cutWord fault
  | _ => .broken .malformed

/-- What comes next after a token in the place of a value. -/
def expectingAfter : Token → Expecting
  | .openArray => .firstItem
  | .openObject => .firstKey
  | token => .after (leadingValue token)

/-- The value of the tokens, inside the open frames. -/
def build : Expecting → List Frame → List Token → Document
  | .value, frames, [] => unwind .ended frames (.broken .ended)
  | .firstItem, frames, [] => unwind .ended frames (.array [] (some .ended))
  | .firstKey, frames, [] =>
    unwind .ended frames (.object [] (some .ended) (some (.broken .ended)))
  | .key done, frames, [] =>
    unwind .ended frames (.object done.reverse (some .ended) (some (.broken .ended)))
  | .colon done key, frames, [] =>
    unwind .ended frames ((Frame.object done key).cut .ended (.broken .ended))
  | .after value, [], [] => ⟨value, false⟩
  | .after value, frames, [] => unwind .ended frames value
  | .value, frames, token :: rest => build (expectingAfter token) frames rest
  | .firstItem, frames, .closeArray :: rest => build (.after (.array [] none)) frames rest
  | .firstItem, frames, token :: rest =>
    build (expectingAfter token) (.array [] :: frames) rest
  | .firstKey, frames, .closeObject :: rest =>
    build (.after (.object [] none none)) frames rest
  | .firstKey, frames, .text key :: rest => build (.colon [] key) frames rest
  | .firstKey, frames, token :: _ =>
    unwind .malformed frames (.object [] (some .malformed) (some (leadingValue token)))
  | .key done, frames, .text key :: rest => build (.colon done key) frames rest
  | .key done, frames, token :: _ =>
    unwind .malformed frames
      (.object done.reverse (some .malformed) (some (leadingValue token)))
  | .colon done key, frames, .colon :: rest => build .value (.object done key :: frames) rest
  | .colon done key, frames, _ :: _ =>
    unwind .malformed frames ((Frame.object done key).cut .malformed (.broken .malformed))
  | .after value, [], _ :: _ => ⟨value, true⟩
  | .after value, .array done :: frames, .comma :: rest =>
    build .value (.array (value :: done) :: frames) rest
  | .after value, .array done :: frames, .closeArray :: rest =>
    build (.after (.array (value :: done).reverse none)) frames rest
  | .after value, .object done key :: frames, .comma :: rest =>
    build (.key ((key, value) :: done)) frames rest
  | .after value, .object done key :: frames, .closeObject :: rest =>
    build (.after (.object ((key, value) :: done).reverse none none)) frames rest
  | .after value, frames, _ :: _ => unwind .malformed frames value

/-- The value of a text. -/
def Document.ofText (text : String) : Document := build .value [] (lex text.toList)

/-! ### Skipping -/

/-- What is wrong with a number that is skipped. -/
def Number.skipFault? : Number → Option Fault
  | .complete .. => none
  | .cut _ => some .malformed

namespace Value

mutual

/-- The first fault of a value that is skipped. -/
def skipFault? : Value → Option Fault
  | .null => none
  | .boolean _ => none
  | .number n => n.skipFault?
  | .text q => q.lax
  | .cutWord fault => some fault
  | .array items ending => (skipItems? items).or ending
  | .object fields ending _ => (skipFields? fields).or ending
  | .broken fault => some fault

/-- The first fault of entries that are skipped. -/
def skipItems? : List Value → Option Fault
  | [] => none
  | value :: rest => (skipFault? value).or (skipItems? rest)

/-- The first fault of fields that are skipped. -/
def skipFields? : List (Quoted × Value) → Option Fault
  | [] => none
  | (key, value) :: rest => (key.lax.or (skipFault? value)).or (skipFields? rest)

end

end Value

end Easing.Json
