/-
**Numbers, dates and times of settings files.**

A whole number has at most sixty-four bits, with its sign. Underscores may stand between digits. A
date must be one of the calendar.
-/
import Easing.Toml.Scan
import Easing.Text.Escape
import Easing.Decimal.Shortest

namespace Easing.Toml

/-! ### Digits -/

/-- Takes a digit, with an underscore before it or not. -/
def nextDigit (test : Char → Bool) : Scanner Char
  | '_' :: rest => oneOf test rest
  | text => oneOf test text

/-- Takes digits, with single underscores between them. -/
def digitRun (test : Char → Bool) : Scanner (List Char) := fun text => do
  let (first, rest) ← oneOf test text
  let (more, rest) := many (nextDigit test) rest
  some (first :: more, rest)

/-- Takes a sign. -/
def sign (text : List Char) : Bool × List Char :=
  match text with
  | '-' :: rest => (true, rest)
  | '+' :: rest => (false, rest)
  | _ => (false, text)

/-- Takes a decimal number: zero, or digits that do not begin with zero. -/
def wholeDigits : Scanner (List Char) := fun text =>
  match text with
  | '0' :: rest => some (['0'], rest)
  | _ => digitRun Char.isDigit text

/-! ### Whole numbers -/

/-- A whole number that fits into sixty-four bits. -/
def fitted (n : Int) : Option Int :=
  let bound : Int := Nat.pow 2 63
  if -bound ≤ n ∧ n < bound then some n else none

/-- The value of digits to a base. -/
def valueOf (base : Nat) (digits : List Char) : Nat :=
  digits.foldl (fun n c => base * n + (Text.hexDigit? c).getD 0) 0

/-- Takes the digits of a number to a base. -/
def basedInteger (base : Nat) : Scanner Int := fun text => do
  let isDigit := fun c => (Text.hexDigit? c).any fun digit => decide (digit < base)
  let (digits, rest) ← digitRun isDigit text
  let n ← fitted (valueOf base digits)
  some (n, rest)

/-- Takes a whole number. -/
def integer : Scanner Int
  | '0' :: 'x' :: rest => basedInteger 16 rest
  | '0' :: 'o' :: rest => basedInteger 8 rest
  | '0' :: 'b' :: rest => basedInteger 2 rest
  | text => do
    let (negative, rest) := sign text
    let (digits, rest) ← wholeDigits rest
    let size : Int := Decimal.ofDigits digits
    let n ← fitted (if negative then -size else size)
    some (n, rest)

/-! ### Numbers with a fraction or an exponent -/

/-- Takes an exponent. -/
def exponent : Scanner Int := fun text => do
  let (_, rest) ← oneOf (fun c => c == 'e' || c == 'E') text
  let (negative, rest) := sign rest
  let (digits, rest) ← digitRun Char.isDigit rest
  let size : Int := Decimal.ofDigits digits
  some (if negative then -size else size, rest)

/-- Takes a fraction. -/
def fraction : Scanner (List Char) := fun text => do
  let (_, rest) ← literally ['.'] text
  digitRun Char.isDigit rest

/-- Takes a number that has a fraction, an exponent or both. One that is too large is refused, but
not one that is too far below zero. -/
def decimal : Scanner Float := fun text => do
  let (negative, rest) := sign text
  let (whole, rest) ← wholeDigits rest
  let (places, rest) := optionally fraction rest
  let (power, rest) := optionally exponent rest
  if places.isNone && power.isNone then none
  else
    let places := places.getD []
    let digits := Decimal.ofDigits (whole ++ places)
    let value := Decimal.readFloat negative ⟨digits, power.getD 0 - places.length⟩
    if value == 1.0 / 0.0 then none else some (value, rest)

/-- Takes infinity or no number. -/
def special : Scanner Float := fun text => do
  let (negative, rest) := sign text
  let (value, rest) ←
    ((literally ['i', 'n', 'f'] rest).map fun (_, rest) => ((1.0 / 0.0 : Float), rest)) <|>
      ((literally ['n', 'a', 'n'] rest).map fun (_, rest) => ((0.0 / 0.0 : Float), rest))
  some (if negative then -value else value, rest)

/-- Takes a number that is no whole number. -/
def float : Scanner Float := fun text => decimal text <|> special text

/-! ### Dates and times -/

/-- Takes a number of so many digits between two bounds. -/
def fixedDigits (count low high : Nat) : Scanner Nat := fun text =>
  let digits := text.take count
  let n := Decimal.ofDigits digits
  if digits.length = count ∧ digits.all Char.isDigit ∧ low ≤ n ∧ n ≤ high then
    some (n, text.drop count)
  else none

/-- The year has a day more. -/
def isLeapYear (year : Nat) : Bool := year % 4 == 0 && (year % 100 != 0 || year % 400 == 0)

/-- The days of a month. -/
def daysOfMonth (year month : Nat) : Nat :=
  if month = 2 then (if isLeapYear year then 29 else 28)
  else if month = 4 ∨ month = 6 ∨ month = 9 ∨ month = 11 then 30
  else 31

/-- Takes a date. -/
def date : Scanner Unit := fun text => do
  let (year, rest) ← fixedDigits 4 0 9999 text
  let (_, rest) ← literally ['-'] rest
  let (month, rest) ← fixedDigits 2 1 12 rest
  let (_, rest) ← literally ['-'] rest
  let (_, rest) ← fixedDigits 2 1 (daysOfMonth year month) rest
  some ((), rest)

/-- Takes the part of a second. -/
def secondPart : Scanner Unit := fun text => do
  let (_, rest) ← literally ['.'] text
  let (_, rest) ← oneOf Char.isDigit rest
  some ((), rest.dropWhile Char.isDigit)

/-- Takes hours and minutes. -/
def hourMinute : Scanner Unit := fun text => do
  let (_, rest) ← fixedDigits 2 0 23 text
  let (_, rest) ← literally [':'] rest
  let (_, rest) ← fixedDigits 2 0 59 rest
  some ((), rest)

/-- Takes a time of the day. The last minute may have a second more. -/
def time : Scanner Unit := fun text => do
  let (_, rest) ← hourMinute text
  let (_, rest) ← literally [':'] rest
  let (_, rest) ← fixedDigits 2 0 60 rest
  some ((), (optionally secondPart rest).2)

/-- Takes the distance from universal time. -/
def zone : Scanner Unit := fun text =>
  ((oneOf (fun c => c == 'Z' || c == 'z') text).map fun (_, rest) => ((), rest)) <|> do
    let (_, rest) ← oneOf (fun c => c == '+' || c == '-') text
    hourMinute rest

/-- Takes a time after a date. -/
def timeAfterDate : Scanner Unit := fun text => do
  let (_, rest) ← oneOf (fun c => c == 'T' || c == 't' || c == ' ') text
  let (_, rest) ← time rest
  some ((), (optionally zone rest).2)

/-- Takes a date, a time or both. -/
def moment : Scanner Unit := fun text =>
  ((date text).map fun (_, rest) => ((), (optionally timeAfterDate rest).2)) <|> time text

end Easing.Toml
