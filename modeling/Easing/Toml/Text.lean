/-
**Texts and keys of settings files.**

A text stands in double quotes, with escapes, or in single quotes, without. Three quotes begin a
text over several lines. A key is bare or a text on one line; dots join keys to a path.
-/
import Easing.Toml.Scan
import Easing.Text.Escape

namespace Easing.Toml

/-! ### Characters -/

/-- The character that a short escape stands for. -/
def shortEscape? : Char → Option Char
  | 'b' => some '\x08'
  | 't' => some '\t'
  | 'n' => some '\n'
  | 'f' => some '\x0c'
  | 'r' => some '\r'
  | '"' => some '"'
  | '\\' => some '\\'
  | _ => none

/-- Takes so many hexadecimal digits, the number of a character. -/
def hexChar (count : Nat) : Scanner Char := fun text => do
  let digits := text.take count
  if digits.length < count then none
  else
    let number ← Text.ofHex? digits
    if number.isValidChar then some (Char.ofNat number, text.drop count) else none

/-- Takes an escape. -/
def escape : Scanner Char
  | '\\' :: 'u' :: rest => hexChar 4 rest
  | '\\' :: 'U' :: rest => hexChar 8 rest
  | '\\' :: c :: rest => (shortEscape? c).map fun plain => (plain, rest)
  | _ => none

/-- Takes a character of a text in double quotes. -/
def basicChar : Scanner Char := fun text =>
  oneOf (fun c => isPlain c && c ≠ '"' && c ≠ '\\') text <|> escape text

/-- Takes a character of a text in single quotes. -/
def literalChar : Scanner Char := oneOf fun c => isPlain c && c ≠ '\''

/-! ### Texts on one line -/

/-- Takes characters up to a closing quote. -/
def closedBy (quote : Char) (piece : Scanner Char) : Scanner (List Char) := fun text =>
  match many piece text with
  | (cs, c :: rest) => if c = quote then some (cs, rest) else none
  | (_, []) => none

/-- Takes a text on one line. -/
def lineText : Scanner (List Char)
  | '"' :: rest => closedBy '"' basicChar rest
  | '\'' :: rest => closedBy '\'' literalChar rest
  | _ => none

/-! ### Texts over several lines -/

/-- Takes the end of a line that a backslash joins with the next word. -/
def joinedLines : Scanner (List Char)
  | '\\' :: rest => do
    let (_, rest) ← newline (skipBlanks rest)
    let blankOrEnd : Scanner Unit := fun text =>
      ((oneOf isBlank text).map fun (_, rest) => ((), rest)) <|> newline text
    some ([], (many blankOrEnd rest).2)
  | _ => none

/-- Takes one or two quotes that do not close the text. -/
def innerQuotes (quote : Char) : Scanner (List Char) := fun text =>
  let run := text.takeWhile (· == quote)
  if 0 < run.length ∧ run.length < 3 then some (run, text.drop run.length) else none

/-- Takes a part of a text over several lines. -/
def longPiece (quote : Char) (piece : Scanner Char) : Scanner (List Char) := fun text =>
  ((piece text).map fun (c, rest) => ([c], rest)) <|>
    ((newline text).map fun (_, rest) => (['\n'], rest)) <|>
    innerQuotes quote text <|>
    (if quote = '"' then joinedLines text else none)

/-- Takes a text over several lines after its opening quotes. Up to two quotes before the closing
ones belong to the text. -/
def longText (quote : Char) (piece : Scanner Char) : Scanner (List Char) := fun text =>
  let (pieces, rest) := many (longPiece quote piece) (optionally newline text).2
  let run := min (rest.takeWhile (· == quote)).length 5
  if run < 3 then none
  else some (pieces.flatten ++ List.replicate (run - 3) quote, rest.drop run)

/-- Takes a text. -/
def anyText : Scanner (List Char)
  | '"' :: '"' :: '"' :: rest => longText '"' basicChar rest
  | '\'' :: '\'' :: '\'' :: rest => longText '\'' literalChar rest
  | text => lineText text

/-! ### Keys -/

/-- A character of a bare key. -/
def isBare (c : Char) : Bool := c.isAlphanum || c == '-' || c == '_'

/-- Takes a bare key. -/
def bareKey : Scanner (List Char) := fun text =>
  match text.takeWhile isBare with
  | [] => none
  | key => some (key, text.drop key.length)

/-- Takes a key with the blanks around it. -/
def keyPart : Scanner String := fun text => do
  let (key, rest) ← lineText (skipBlanks text) <|> bareKey (skipBlanks text)
  some (String.ofList key, skipBlanks rest)

/-- The number of keys that a path stays below. -/
def pathLimit : Nat := 80

/-- Takes keys with dots between them. -/
def keyPath : Scanner (List String) := fun text => do
  let (first, rest) ← keyPart text
  let dotted : Scanner String := fun text => do
    let (_, rest) ← literally ['.'] text
    keyPart rest
  let (more, rest) := many dotted rest
  if (first :: more).length < pathLimit then some (first :: more, rest) else none

end Easing.Toml
