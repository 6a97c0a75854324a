/-
**Reading a text from the front.**

A scanner takes something from the front of a text and leaves the rest, or finds nothing there.
`many` repeats a scanner for as long as it takes something, so it ends at every text.

* `Scanner`, `many`.
* `skipBlanks`, `lineEnd`, `skipFiller`: what separates the parts of a settings file.
-/

namespace Easing.Toml

/-- Takes something from the front of a text. -/
abbrev Scanner (β : Type) := List Char → Option (β × List Char)

/-- Repeats a scanner until it finds nothing, or takes nothing. -/
def many {β : Type} (step : Scanner β) (text : List Char) : List β × List Char :=
  match step text with
  | none => ([], text)
  | some (first, rest) =>
    if _shorter : rest.length < text.length then
      let (more, after) := many step rest
      (first :: more, after)
    else ([first], rest)
termination_by text.length

/-- Takes one character that passes a test. -/
def oneOf (test : Char → Bool) : Scanner Char
  | c :: rest => if test c then some (c, rest) else none
  | [] => none

/-- Takes the given characters. -/
def literally : List Char → Scanner Unit
  | [], text => some ((), text)
  | c :: word, d :: rest => if c = d then literally word rest else none
  | _ :: _, [] => none

/-- Takes what a scanner finds, if anything. -/
def optionally {β : Type} (scan : Scanner β) (text : List Char) : Option β × List Char :=
  match scan text with
  | some (found, rest) => (some found, rest)
  | none => (none, text)

/-! ### Blanks, line ends and comments -/

/-- A blank inside a line. -/
def isBlank (c : Char) : Bool := c == ' ' || c == '\t'

/-- Drops blanks. -/
def skipBlanks (text : List Char) : List Char := text.dropWhile isBlank

/-- Takes a line end: a line feed, with or without a carriage return before it. -/
def newline : Scanner Unit
  | '\n' :: rest => some ((), rest)
  | '\r' :: '\n' :: rest => some ((), rest)
  | _ => none

/-- A character that may stand in a comment: a tab, or one that is no control character. -/
def isPlain (c : Char) : Bool := c == '\t' || (32 ≤ c.toNat && c.toNat ≠ 127)

/-- Takes a comment, up to the end of its line. -/
def comment : Scanner Unit
  | '#' :: rest => some ((), rest.dropWhile isPlain)
  | _ => none

/-- Takes the rest of a line: blanks, a comment, and the line end or the end of the text. -/
def lineEnd : Scanner Unit := fun text =>
  match (optionally comment (skipBlanks text)).2 with
  | [] => some ((), [])
  | rest => newline rest

/-- Takes a blank, a line end or a comment. -/
def filler : Scanner Unit := fun text =>
  ((oneOf isBlank text).map fun (_, rest) => ((), rest)) <|> newline text <|> comment text

/-- Drops blanks, line ends and comments. -/
def skipFiller (text : List Char) : List Char := (many filler text).2

end Easing.Toml
