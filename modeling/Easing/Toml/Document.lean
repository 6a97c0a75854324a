/-
**Settings files read as tables.**

A file is a sequence of lines: headers in brackets, keys with values, comments. It is read as a
whole or not at all.

* `value`: a value, nested to a bounded depth.
* `Statement`, `statement`: a line.
* `parse?`: the table of a file.
-/
import Easing.Toml.Text
import Easing.Toml.Number
import Easing.Toml.Table

namespace Easing.Toml

/-! ### Values -/

/-- Takes a date, a time or a number. -/
def numeric : Scanner Item := fun text =>
  ((moment text).map fun (_, rest) => (.moment, rest)) <|>
    ((float text).map fun (x, rest) => (.float x, rest)) <|>
    ((integer text).map fun (n, rest) => (.integer n, rest))

/-- Takes a value that holds no others. -/
def scalar : Scanner Item := fun text =>
  ((anyText text).map fun (cs, rest) => (.text (String.ofList cs), rest)) <|>
    ((literally ['t', 'r', 'u', 'e'] text).map fun (_, rest) => (.boolean true, rest)) <|>
    ((literally ['f', 'a', 'l', 's', 'e'] text).map fun (_, rest) => (.boolean false, rest)) <|>
    numeric text

/-- Takes things with commas between them. -/
def separated {β : Type} (one : Scanner β) (text : List Char) : List β × List Char :=
  match one text with
  | none => ([], text)
  | some (first, rest) =>
    let next : Scanner β := fun text => do
      let (_, rest) ← literally [','] text
      one rest
    let (more, rest) := many next rest
    (first :: more, rest)

/-- Takes a key path and the value after its equals sign. -/
def pair (value : Scanner Item) : Scanner (List String × Item) := fun text => do
  let (path, rest) ← keyPath text
  let (_, rest) ← literally ['='] rest
  let (item, rest) ← value (skipBlanks rest)
  some ((path, item), rest)

/-- Puts a value under a path into a table. -/
def insertPath (inline : Bool) (path : List String) (item : Item) (origin : Origin)
    (entries : Entries) : Option Entries :=
  match path.getLast? with
  | some key => insertKey inline path.dropLast key item origin entries
  | none => none

/-- Takes an array after its bracket. A comma may follow the last entry. -/
def arrayRest (value : Scanner Item) : Scanner Item := fun text => do
  let entry : Scanner Item := fun text => do
    let (item, rest) ← value (skipFiller text)
    some (item, skipFiller rest)
  let (items, rest) := separated entry text
  let rest := if items.isEmpty then rest else (optionally (literally [',']) rest).2
  let (_, rest) ← literally [']'] (skipFiller rest)
  some (.array items, rest)

/-- Takes a table after its brace. -/
def tableRest (value : Scanner Item) : Scanner Item := fun text => do
  let entry : Scanner (List String × Item) := fun text => do
    let (found, rest) ← pair value text
    some (found, skipBlanks rest)
  let (pairs, rest) := separated entry text
  let (_, rest) ← literally ['\x7d'] (skipBlanks rest)
  let entries ← pairs.foldlM
    (fun entries (path, item) => insertPath true path item .explicit entries) []
  some (.table true .explicit entries, rest)

/-- Takes a value in which arrays and tables are nested at most so deep. -/
def value : Nat → Scanner Item
  | 0, text => scalar text
  | depth + 1, text =>
    match text with
    | '[' :: rest => arrayRest (value depth) rest
    | '\x7b' :: rest => tableRest (value depth) rest
    | _ => scalar text

/-- The depth to which values are nested. -/
def depthLimit : Nat := 79

/-! ### Lines -/

/-- A line of a file. -/
inductive Statement where
  | blank
  /-- A header in brackets. -/
  | header (path : List String)
  /-- A header in double brackets. -/
  | elementHeader (path : List String)
  | assign (path : List String) (item : Item)

/-- Takes a header or a key with its value. -/
def content : Scanner Statement
  | '[' :: '[' :: rest => do
    let (path, rest) ← keyPath rest
    let (_, rest) ← literally [']', ']'] rest
    some (.elementHeader path, rest)
  | '[' :: rest => do
    let (path, rest) ← keyPath rest
    let (_, rest) ← literally [']'] rest
    some (.header path, rest)
  | text => (pair (value depthLimit) text).map fun ((path, item), rest) =>
    (.assign path item, rest)

/-- Takes a line with what ends it. -/
def statement : Scanner Statement := fun text =>
  match skipBlanks text with
  | [] => none
  | text =>
    ((lineEnd text).map fun (_, rest) => (.blank, rest)) <|> do
      let (found, rest) ← content text
      let (_, rest) ← lineEnd rest
      some (found, rest)

/-! ### Files -/

/-- The root table so far, and the path of the last header. -/
structure State where
  root : Entries
  path : List String

/-- Changes the entry that a header names, making the tables on the way. -/
def changeNamed (state : State) (path : List String) (change : Option Item → Option Item) :
    Option State :=
  match path.getLast? with
  | none => none
  | some key =>
    (descend false .implied path.dropLast (fun _ entries => alter key change entries)
      .explicit state.root).map fun root => ⟨root, path⟩

/-- A table as a whole. One that was only implied becomes whole. -/
def openTable : Option Item → Option Item
  | none => some (.table false .explicit [])
  | some (.table false .implied entries) => some (.table false .explicit entries)
  | some _ => none

/-- One more table under a header in double brackets. -/
def openElement : Option Item → Option Item
  | none => some (.tables [[]])
  | some (.tables elements) => some (.tables (elements ++ [[]]))
  | some _ => none

/-- Applies a line. -/
def apply (state : State) : Statement → Option State
  | .blank => some state
  | .header path => changeNamed state path openTable
  | .elementHeader path => changeNamed state path openElement
  | .assign path item =>
    (descend false .implied state.path (insertPath false path item) .explicit state.root).map
      fun root => { state with root }

/-- A mark that some editors put at the beginning of a file. -/
def byteOrderMark : Char := '\ufeff'

/-- The table of a file. -/
def parse? (text : String) : Option Entries :=
  let cs := match text.toList with
    | c :: rest => if c = byteOrderMark then rest else c :: rest
    | [] => []
  let (statements, rest) := many statement cs
  if (skipBlanks rest).isEmpty then
    (statements.foldlM apply ⟨[], []⟩).map (·.root)
  else none

end Easing.Toml
