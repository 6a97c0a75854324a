/-
**The tokens of a JSON text.**

The lexer is total: a text that is not JSON has tokens up to the place where it stops being JSON,
and there a token that says what is wrong. A token after which nothing can be read is the last one.

A text token and a number token are looked at in two ways. One that is used must stand for
characters, or for a number; one that is skipped must only end properly.

* `Fault`: the two ways in which a text is not JSON.
* `Quoted`, `Number`: the tokens with content.
* `lex`: the tokens of a text.
-/
import Easing.Decimal.Shortest
import Easing.Text.Escape

namespace Easing.Json

/-- Why a text is not JSON. -/
inductive Fault where
  /-- It ends too early. -/
  | ended
  /-- It goes on with what is not allowed there. -/
  | malformed
deriving DecidableEq

/-- A text in quotes. -/
structure Quoted where
  /-- The characters, when the text is used. -/
  strict : Except Fault (List Char)
  /-- What is wrong when the text is skipped. -/
  lax : Option Fault

/-- A number. -/
inductive Number where
  /-- All of a number: the digits before and after its point, and the exponent if it has one. -/
  | complete (negative : Bool) (whole fraction : List Char) (exponent : Option Int)
  /-- A number that stops in the middle. -/
  | cut (fault : Fault)

/-- A token. -/
inductive Token where
  | openArray
  | closeArray
  | openObject
  | closeObject
  | comma
  | colon
  | null
  | boolean (value : Bool)
  | number (value : Number)
  | text (value : Quoted)
  /-- A word that stops in the middle. -/
  | cutWord (fault : Fault)
  /-- A character with which nothing begins. -/
  | unknown

/-- A blank between tokens. -/
def isBlank (c : Char) : Bool := c == ' ' || c == '\n' || c == '\t' || c == '\r'

/-- What is wrong where something else had to come: nothing comes, or something other. -/
def faultAt (rest : List Char) : Fault := if rest.isEmpty then .ended else .malformed

/-! ### Words -/

/-- A token with the text after it. -/
abbrev Lexeme := Token × List Char

/-- The token, when the text begins with the rest of its word. -/
def lexWord (token : Token) : List Char → List Char → Lexeme
  | [], rest => (token, rest)
  | _ :: _, [] => (.cutWord .ended, [])
  | c :: word, d :: rest => if c = d then lexWord token word rest else (.cutWord .malformed, [])

theorem length_lexWord (token : Token) (word text : List Char) :
    (lexWord token word text).2.length ≤ text.length := by
  induction word generalizing text with
  | nil => simp [lexWord]
  | cons c word ih =>
    cases text with
    | nil => simp [lexWord]
    | cons d rest =>
      unfold lexWord
      split
      · exact Nat.le_succ_of_le (ih rest)
      · simp

/-! ### Numbers -/

/-- The digits at the front of a text, and what follows them. -/
def spanDigits (text : List Char) : List Char × List Char :=
  (text.takeWhile Char.isDigit, text.dropWhile Char.isDigit)

theorem length_spanDigits (text : List Char) : (spanDigits text).2.length ≤ text.length :=
  (List.dropWhile_sublist Char.isDigit).length_le

/-- A number that stops before the given text. -/
def cutNumber (rest : List Char) : Lexeme := (.number (.cut (faultAt rest)), [])

/-- The sign of an exponent, and what follows it. -/
def spanSign : List Char → Bool × List Char
  | '+' :: rest => (false, rest)
  | '-' :: rest => (true, rest)
  | rest => (false, rest)

theorem length_spanSign (text : List Char) : (spanSign text).2.length ≤ text.length := by
  unfold spanSign
  split <;> simp

/-- The part of a number after its exponent mark. -/
def lexExponent (negative : Bool) (whole fraction text : List Char) : Lexeme :=
  let (down, rest) := spanSign text
  let (exponent, after) := spanDigits rest
  if exponent.isEmpty then cutNumber after
  else
    let size : Int := Decimal.ofDigits exponent
    (.number (.complete negative whole fraction (some (if down then -size else size))), after)

theorem length_lexExponent (negative : Bool) (whole fraction text : List Char) :
    (lexExponent negative whole fraction text).2.length ≤ text.length := by
  unfold lexExponent
  dsimp only
  split
  · simp [cutNumber]
  · exact Nat.le_trans (length_spanDigits _) (length_spanSign _)

/-- The part of a number after its digits. -/
def lexMark (negative : Bool) (whole fraction : List Char) : List Char → Lexeme
  | 'e' :: rest => lexExponent negative whole fraction rest
  | 'E' :: rest => lexExponent negative whole fraction rest
  | rest => (.number (.complete negative whole fraction none), rest)

theorem length_lexMark (negative : Bool) (whole fraction text : List Char) :
    (lexMark negative whole fraction text).2.length ≤ text.length := by
  unfold lexMark
  split
  · exact Nat.le_succ_of_le (length_lexExponent ..)
  · exact Nat.le_succ_of_le (length_lexExponent ..)
  · simp

/-- The part of a number after its whole part. -/
def lexFraction (negative : Bool) (whole : List Char) : List Char → Lexeme
  | '.' :: rest =>
    let (fraction, after) := spanDigits rest
    if fraction.isEmpty then cutNumber after
    else lexMark negative whole fraction after
  | rest => lexMark negative whole [] rest

theorem length_lexFraction (negative : Bool) (whole text : List Char) :
    (lexFraction negative whole text).2.length ≤ text.length := by
  unfold lexFraction
  split
  · dsimp only
    split
    · simp [cutNumber]
    · exact Nat.le_succ_of_le (Nat.le_trans (length_lexMark ..) (length_spanDigits _))
  · exact length_lexMark ..

/-- A number with the digits of its whole part, and the text after them. A zero is not followed by
digits. -/
def lexNumber (negative : Bool) (whole rest : List Char) : Lexeme :=
  match whole with
  | [] => cutNumber rest
  | '0' :: _ :: _ => (.number (.cut .malformed), [])
  | _ => lexFraction negative whole rest

theorem length_lexNumber (negative : Bool) (whole rest : List Char) :
    (lexNumber negative whole rest).2.length ≤ rest.length := by
  unfold lexNumber
  split
  · simp [cutNumber]
  · simp
  · exact length_lexFraction ..

/-! ### Texts -/

/-- A written character: itself, or a code unit given by four hexadecimal digits. -/
inductive Piece where
  | plain (c : Char)
  | code (unit : Nat)

/-- The pieces of a text up to its closing quote, or up to what is wrong. -/
structure Pieces where
  pieces : List Piece
  fault : Option Fault
  rest : List Char

/-- Puts a piece in front. -/
def Pieces.cons (piece : Piece) (p : Pieces) : Pieces := { p with pieces := piece :: p.pieces }

/-- The character that a short escape stands for. -/
def shortEscape? : Char → Option Char
  | '"' => some '"'
  | '\\' => some '\\'
  | '/' => some '/'
  | 'b' => some '\x08'
  | 'f' => some '\x0c'
  | 'n' => some '\n'
  | 'r' => some '\r'
  | 't' => some '\t'
  | _ => none

/-- The number of bytes of a text. -/
def byteCount (text : List Char) : Nat := text.foldl (fun n c => n + c.utf8Size) 0

/-- The pieces of a text after its opening quote. -/
def scanText : List Char → Pieces
  | [] => ⟨[], some .ended, []⟩
  | '"' :: rest => ⟨[], none, rest⟩
  | '\\' :: 'u' :: a :: b :: c :: d :: rest =>
    match Text.ofHex? [a, b, c, d] with
    | some unit => (scanText rest).cons (.code unit)
    | none => ⟨[], some .malformed, []⟩
  | '\\' :: 'u' :: rest => ⟨[], some (if byteCount rest < 4 then .ended else .malformed), []⟩
  | '\\' :: c :: rest =>
    match shortEscape? c with
    | some plain => (scanText rest).cons (.plain plain)
    | none => ⟨[], some .malformed, []⟩
  | ['\\'] => ⟨[], some .ended, []⟩
  | c :: rest =>
    if c.toNat < 32 then ⟨[], some .malformed, []⟩ else (scanText rest).cons (.plain c)

theorem length_scanText (text : List Char) : (scanText text).rest.length ≤ text.length := by
  fun_induction scanText text <;> simp_all [Pieces.cons] <;> omega

/-- A unit that begins a pair. -/
def isHighSurrogate (unit : Nat) : Bool := 0xD800 ≤ unit && unit ≤ 0xDBFF

/-- A unit that ends a pair. -/
def isLowSurrogate (unit : Nat) : Bool := 0xDC00 ≤ unit && unit ≤ 0xDFFF

/-- The character of a pair of units. -/
def ofPair (high low : Nat) : Char :=
  Char.ofNat ((high - 0xD800) * 0x400 + (low - 0xDC00) + 0x10000)

/-- The characters of pieces. A unit of a pair must stand in a pair. The pieces end with the closing
quote or with what is wrong there. -/
def joinPieces (fault : Option Fault) : List Piece → Except Fault (List Char)
  | [] =>
    match fault with
    | some fault => .error fault
    | none => .ok []
  | .plain c :: rest => (joinPieces fault rest).map (c :: ·)
  | .code unit :: .code next :: rest =>
    if isHighSurrogate unit then
      if isLowSurrogate next then (joinPieces fault rest).map (ofPair unit next :: ·)
      else .error .malformed
    else if isLowSurrogate unit then .error .malformed
    else (joinPieces fault (.code next :: rest)).map (Char.ofNat unit :: ·)
  | .code unit :: rest =>
    if isHighSurrogate unit then
      .error (if rest.isEmpty then fault.getD .malformed else .malformed)
    else if isLowSurrogate unit then .error .malformed
    else (joinPieces fault rest).map (Char.ofNat unit :: ·)

/-- A text after its opening quote. -/
def lexText (text : List Char) : Lexeme :=
  let scanned := scanText text
  (.text ⟨joinPieces scanned.fault scanned.pieces, scanned.fault⟩, scanned.rest)

theorem length_lexText (text : List Char) : (lexText text).2.length ≤ text.length :=
  length_scanText text

/-! ### The lexer -/

/-- The token that begins with a character, and the text after it. -/
def lexFrom (c : Char) (rest : List Char) : Lexeme :=
  match c with
  | '[' => (.openArray, rest)
  | ']' => (.closeArray, rest)
  | '\x7b' => (.openObject, rest)
  | '\x7d' => (.closeObject, rest)
  | ',' => (.comma, rest)
  | ':' => (.colon, rest)
  | 'n' => lexWord .null ['u', 'l', 'l'] rest
  | 't' => lexWord (.boolean true) ['r', 'u', 'e'] rest
  | 'f' => lexWord (.boolean false) ['a', 'l', 's', 'e'] rest
  | '"' => lexText rest
  | '-' =>
    let (whole, after) := spanDigits rest
    lexNumber true whole after
  | c =>
    if c.isDigit then
      let (more, after) := spanDigits rest
      lexNumber false (c :: more) after
    else (.unknown, [])

theorem length_lexFrom (c : Char) (rest : List Char) :
    (lexFrom c rest).2.length ≤ rest.length := by
  unfold lexFrom
  split
  case h_7 | h_8 | h_9 => exact length_lexWord ..
  case h_10 => exact length_lexText _
  case h_11 => exact Nat.le_trans (length_lexNumber ..) (length_spanDigits _)
  case h_12 =>
    split
    · exact Nat.le_trans (length_lexNumber ..) (length_spanDigits _)
    · simp
  all_goals exact Nat.le_refl _

/-- The tokens of a text. -/
def lex : List Char → List Token
  | [] => []
  | c :: rest =>
    if isBlank c then lex rest
    else
      have := length_lexFrom c rest
      (lexFrom c rest).1 :: lex (lexFrom c rest).2
termination_by text => text.length
decreasing_by
  · simp
  · simp only [List.length_cons]
    omega

end Easing.Json
