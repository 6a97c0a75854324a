/-
**Scripts: the programs that curves are rendered as.**

A script is a tree of statements and expressions over the scalars of the curve. It is written in
two dialects that differ in the annotations of variables and functions alone; the tree holds the
annotations, and the dialect decides whether they appear.

* `Dialect`, `Kind`: whether annotations are written, and what they say.
* `Expr`: values, arithmetic, tests, arrays, calls and functions of numbers.
* `Simple`: the statements on one line.
* `Stmt`: tests, loops, functions and tables.
-/

namespace Easing.Script

/-- Whether variables and functions are annotated. -/
inductive Dialect where
  | typed
  | untyped
deriving DecidableEq

/-- What a variable holds or a function returns. -/
inductive Kind where
  | number
  | numbers
  | pairs
  | rows
  | numberFunction

/-- Operations on two values. -/
inductive Operator where
  | or
  | and
  | equal
  | unequal
  | less
  | atMost
  | greater
  | atLeast
  | shiftRight
  | plus
  | minus
  | times
  | divide
deriving DecidableEq

/-- Functions that every script can call. -/
inductive Builtin where
  | abs
  | floor
  | min
  | isNaN

/-- Expressions. -/
inductive Expr (α : Type) where
  /-- A number, written with its digits. -/
  | literal (value : α)
  /-- The number that is none. -/
  | nan
  | variable (name : String)
  | binary (operator : Operator) (left right : Expr α)
  /-- One of two values, by a test. -/
  | choose (test yes no : Expr α)
  | call (callee : String) (arguments : List (Expr α))
  | builtin (callee : Builtin) (arguments : List (Expr α))
  /-- An entry of an array. -/
  | item (array index : Expr α)
  /-- The number of entries of an array. -/
  | size (array : Expr α)
  /-- An array of the given entries. -/
  | array (entries : List (Expr α))
  /-- A variable after one was added to it. -/
  | incremented (name : String)
  /-- A function of numbers that returns a number. -/
  | function (parameters : List String) (body : Expr α)

/-- Statements on one line. -/
inductive Simple (α : Type) where
  /-- A name for a value that does not change. -/
  | constant (name : String) (kind : Option Kind) (value : Expr α)
  /-- Two names for the two entries of an array. -/
  | constantPair (first second : String) (value : Expr α)
  /-- A variable and its first value. -/
  | variable (name : String) (value : Expr α)
  | assign (name : String) (value : Expr α)
  | subtract (name : String) (value : Expr α)
  | increment (name : String)
  | decrement (name : String)
  /-- Adds an entry at the end of an array. -/
  | push (array : String) (value : Expr α)
  | result (value : Expr α)
  | leave

/-- Statements. -/
inductive Stmt (α : Type) where
  | simple (statement : Simple α)
  | blank
  /-- A named function given by an expression, which begins a line of its own. -/
  | longFunction (name : String) (parameters : List String) (body : Expr α)
  /-- A named function given by statements, inside another one. -/
  | localFunction (name : String) (parameters : List String) (body : List (Stmt α))
  /-- A function given by statements, with what it returns. -/
  | function (name : String) (parameters : List String) (returns : Kind)
      (body : List (Stmt α))
  /-- A statement under a test. -/
  | guarded (test : Expr α) (statement : Simple α)
  /-- One of two statements. -/
  | either (test : Expr α) (yes no : Simple α)
  /-- Statements under a test. -/
  | block (test : Expr α) (body : List (Stmt α))
  /-- A statement for a variable that counts from zero up to a bound. -/
  | countOne (counter : String) (bound : Expr α) (statement : Simple α)
  /-- Statements for a variable that counts from zero up to a bound. -/
  | count (counter : String) (bound : Expr α) (body : List (Stmt α))
  /-- A statement as long as a test holds. -/
  | loopOne (test : Expr α) (statement : Simple α)
  /-- Statements as long as a test holds. -/
  | loop (test : Expr α) (body : List (Stmt α))
  /-- Statements, again as long as a test holds after them. -/
  | loopAfter (body : List (Stmt α)) (test : Expr α)
  /-- A name for an array, each entry on a line of its own. -/
  | table (name : String) (kind : Kind) (rows : List (Expr α))

end Easing.Script
