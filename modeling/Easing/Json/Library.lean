/-
**What reads and writes JSON.**

The texts of snapshots are read and written by a library. It builds what reads a value from what
reads its parts, and it is told what to write without its form. Nothing is assumed of a library
here; what a statement needs is a hypothesis of that statement.

A record has named fields in order. A field with a default may be missing.

* `Content`: what is written.
* `Field`, `Shape`: the fields of a record, with what reads them.
* `Library`: readers of numbers, records and sequences; reading and writing whole texts.
-/

namespace Easing.Json

/-- What is written: a number, a record or a sequence. -/
inductive Content where
  | number (value : Float)
  | record (fields : List (String × Content))
  | sequence (items : List Content)

/-- A field of a record, and what reads it. -/
structure Field (Reader : Type → Type) (β : Type) where
  name : String
  read : Reader β
  /-- The value of a field that is missing. -/
  default : Option β

/-- A record: its name and its fields in order. -/
structure Shape (Reader : Type → Type) (β : Type) (n : Nat) where
  name : String
  fields : Vector (Field Reader β) n

/-- A library for JSON. -/
structure Library where
  /-- Why a text is not read, or a content not written. -/
  Refusal : Type
  /-- What reads a value. -/
  Reader : Type → Type
  number : Reader Float
  /-- Reads the fields of a record, in their order. -/
  record : {β : Type} → {n : Nat} → Shape Reader β n → Reader (Vector β n)
  /-- Reads every entry of a sequence. -/
  sequence : {β : Type} → Reader β → Reader (List β)
  /-- Reads a whole text. -/
  read : {β : Type} → Reader β → String → Except Refusal β
  /-- The text of a content. -/
  write : Content → Except Refusal String

end Easing.Json
