/-
**Values and tables of settings files.**

A table is made in one of three ways, and this decides who may add to it: a header or braces make
it whole; a longer header implies the tables on its way; dotted keys make the tables on theirs.

* `Item`: the values.
* `descend`: changes the table at the end of a path.
* `insertKey`: puts a value under a path of keys; a key is never given twice.
-/

namespace Easing.Toml

/-- How a table came to be. -/
inductive Origin where
  /-- It was written as a whole. -/
  | explicit
  /-- A header named a table inside it. -/
  | implied
  /-- A dotted key named a value inside it. -/
  | dotted
deriving DecidableEq

/-- A value. -/
inductive Item where
  | text (value : String)
  | integer (value : Int)
  | float (value : Float)
  | boolean (value : Bool)
  /-- A date, a time or both. -/
  | moment
  | array (items : List Item)
  /-- A table; `inline` when it stands in braces. -/
  | table (inline : Bool) (origin : Origin) (entries : List (String × Item))
  /-- A table for each header in double brackets. -/
  | tables (elements : List (List (String × Item)))

/-- The entries of a table, in the order of their first mention. -/
abbrev Entries := List (String × Item)

/-- Changes the item under a key, or adds one. -/
def alter (key : String) (change : Option Item → Option Item) : Entries → Option Entries
  | [] => (change none).map fun item => [(key, item)]
  | (name, item) :: rest =>
    if name = key then (change (some item)).map fun item => (name, item) :: rest
    else (alter key change rest).map ((name, item) :: ·)

/-- Changes the last element of a list. -/
def alterLast {β : Type} (change : β → Option β) (elements : List β) : Option (List β) :=
  match elements.getLast? with
  | some last => (change last).map fun last => elements.dropLast ++ [last]
  | none => none

/-- Changes the table at the end of a path. Tables on the way that are not there are made with the
given origin. Dotted keys do not go into a table that was written as a whole. -/
def descend (inline : Bool) (step : Origin) :
    List String → (Origin → Entries → Option Entries) → Origin → Entries → Option Entries
  | [], change, origin, entries => change origin entries
  | key :: path, change, _, entries =>
    alter key (fun
      | none => (descend inline step path change step []).map (.table inline step)
      | some (.table true origin inner) =>
        if inline && !(step == .dotted && origin == .explicit) then
          (descend inline step path change origin inner).map (.table true origin)
        else none
      | some (.table false origin inner) =>
        if !inline && !(step == .dotted && origin == .explicit) then
          (descend inline step path change origin inner).map (.table false origin)
        else none
      | some (.tables elements) =>
        if inline then none
        else (alterLast (descend inline step path change .explicit) elements).map .tables
      | some _ => none)
      entries

/-- Adds a key that is not there yet. -/
def addKey (key : String) (item : Item) : Entries → Option Entries :=
  alter key fun
    | none => some item
    | some _ => none

/-- Puts a value under a path of keys in a table. The last table on the way must come from dotted
keys, too. -/
def insertKey (inline : Bool) (path : List String) (key : String) (item : Item)
    (origin : Origin) (entries : Entries) : Option Entries :=
  descend inline .dotted path
    (fun origin inner =>
      if (origin == .dotted) == path.isEmpty then none else addKey key item inner)
    origin entries

end Easing.Toml
