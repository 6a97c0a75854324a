/-
**The function around a script.**

A script becomes the body of a function of `t`, indented by one step. A body that comes as text is
cut into lines first: a line ends at a line feed, and a carriage return right before the feed goes
with it.

* `splitLines`: the lines of a text.
* `wrapLines`: the function with the given lines as its body.
* `wrap`: the function with the given text as its body.
-/
import Easing.Script.Printer

namespace Easing.Script

/-- The lines of a text, without their ends. What follows the last line feed is a line only when it
is not empty. -/
def splitChars : List Char → List (List Char)
  | [] => []
  | '\n' :: rest => [] :: splitChars rest
  | '\r' :: '\n' :: rest => [] :: splitChars rest
  | c :: rest =>
    match splitChars rest with
    | [] => [[c]]
    | line :: more => (c :: line) :: more

/-- The lines of a text, without their ends. -/
def splitLines (text : String) : List String := (splitChars text.toList).map String.ofList

/-- The name of the function. -/
def functionName : String := "interpolate"

/-- The first line of the function. -/
def header (dialect : Dialect) : String :=
  "function " ++ functionName ++ signature dialect ["t"] .number ++ " \x7b"

/-- A line of the body; an empty one stays empty. -/
def bodyLine (line : String) : String := if line.isEmpty then line else "  " ++ line

/-- The function whose body has the given lines. -/
def wrapLines (dialect : Dialect) (lines : List String) : String :=
  unlines ([header dialect] ++ lines.map bodyLine ++ ["\x7d"])

/-- The function whose body has the given text. -/
def wrap (dialect : Dialect) (body : String) : String := wrapLines dialect (splitLines body)

end Easing.Script
