/-
**The tokens of a text.**

A text is cut at line feeds, and every line into words, numbers and marks, with blanks between
them. A token goes on as long as it can: marks that the scripts do not use are known, so that no
part of such a mark is taken for a mark of its own. A result must begin on the line of its word,
and an arrow stand on the line of its parameters; a line that ends or begins otherwise is not read.

* `Token`: words with a meaning, names, numbers and marks; `isName`: what can be a name.
* `lex`: the tokens of a line; `tokens`: those of a text.
* `lex_scan`, `lex_piece`: pieces of a line.
* `lex_name`, `lex_number`: words and numbers, up to what they cannot go on with.
-/

namespace Easing.Script

/-! ### Words and marks -/

/-- Words with a meaning: those of statements, and the global names that scripts use. -/
inductive Keyword where
  | constWord
  | letWord
  | functionWord
  | returnWord
  | ifWord
  | elseWord
  | forWord
  | whileWord
  | doWord
  | breakWord
  | nanWord
  | mathWord
  | numberWord
deriving DecidableEq

/-- Marks, alone or of several characters. -/
inductive Mark where
  | openRound
  | closeRound
  | openSquare
  | closeSquare
  | openCurly
  | closeCurly
  | comma
  | semicolon
  | dot
  | question
  | colon
  | arrow
  | becomes
  | lessens
  | increment
  | decrement
  | or
  | and
  | identical
  | distinct
  | less
  | atMost
  | greater
  | atLeast
  | shiftRight
  | plus
  | minus
  | times
  | divide
deriving DecidableEq

/-- A token. -/
inductive Token where
  | keyword (word : Keyword)
  | name (text : String)
  | number (text : List Char)
  | mark (mark : Mark)
  /-- What is not read. -/
  | unknown
deriving DecidableEq

/-- The words with a meaning. -/
def keywords : List (String × Keyword) :=
  [("const", .constWord), ("let", .letWord), ("function", .functionWord),
    ("return", .returnWord), ("if", .ifWord), ("else", .elseWord), ("for", .forWord),
    ("while", .whileWord), ("do", .doWord), ("break", .breakWord), ("NaN", .nanWord),
    ("Math", .mathWord), ("Number", .numberWord)]

/-- Other words that are not names. -/
def reservedWords : List String :=
  ["arguments", "await", "case", "catch", "class", "continue", "debugger", "default", "delete",
    "enum", "eval", "export", "extends", "false", "finally", "implements", "import", "in",
    "instanceof", "interface", "new", "null", "package", "private", "protected", "public",
    "static", "super", "switch", "this", "throw", "true", "try", "typeof", "var", "void", "with",
    "yield"]

/-- The marks, by their characters. -/
def marks : List (List Char × Mark) :=
  [(['('], .openRound), ([')'], .closeRound), (['['], .openSquare), ([']'], .closeSquare),
    (['\x7b'], .openCurly), (['\x7d'], .closeCurly), ([','], .comma), ([';'], .semicolon),
    (['.'], .dot), (['?'], .question), ([':'], .colon), (['=', '>'], .arrow), (['='], .becomes),
    (['-', '='], .lessens), (['+', '+'], .increment), (['-', '-'], .decrement),
    (['|', '|'], .or), (['&', '&'], .and), (['=', '=', '='], .identical),
    (['!', '=', '='], .distinct), (['<'], .less), (['<', '='], .atMost), (['>'], .greater),
    (['>', '='], .atLeast), (['>', '>'], .shiftRight), (['+'], .plus), (['-'], .minus),
    (['*'], .times), (['/'], .divide)]

/-- The characters that a mark can go on with, those of marks that are not read included. -/
def continuations : List Char → List Char
  | ['='] => ['=', '>']
  | ['=', '='] => ['=']
  | ['!'] => ['=']
  | ['!', '='] => ['=']
  | ['<'] => ['=', '<', '!']
  | ['<', '<'] => ['=']
  | ['>'] => ['=', '>']
  | ['>', '>'] => ['=', '>']
  | ['>', '>', '>'] => ['=']
  | ['+'] => ['=', '+']
  | ['-'] => ['=', '-']
  | ['-', '-'] => ['>']
  | ['*'] => ['=', '*']
  | ['*', '*'] => ['=']
  | ['/'] => ['=', '/', '*']
  | ['%'] => ['=']
  | ['&'] => ['=', '&']
  | ['&', '&'] => ['=']
  | ['|'] => ['=', '|']
  | ['|', '|'] => ['=']
  | ['^'] => ['=']
  | ['?'] => ['?', '.']
  | ['?', '?'] => ['=']
  | ['.'] => ['.', '0', '1', '2', '3', '4', '5', '6', '7', '8', '9']
  | _ => []

/-- A word can begin with the character. -/
def isLetter (c : Char) : Bool := c.isAlpha || c == '_' || c == '$'

/-- A word can go on with the character. -/
def isPart (c : Char) : Bool := isLetter c || c.isDigit

/-- The text is a name. -/
def isName (text : String) : Bool :=
  text.toList.head?.any isLetter && text.toList.all isPart &&
    (keywords.lookup text).isNone && text ∉ reservedWords

/-- The token that a word is. -/
def wordToken (text : String) : Token :=
  match keywords.lookup text with
  | some word => .keyword word
  | none => if text ∈ reservedWords then .unknown else .name text

/-- The token that a mark is. -/
def markToken (text : List Char) : Token := (marks.lookup text).elim .unknown .mark

/-! ### Lines -/

/-- What has been read of a token. -/
inductive Pending where
  | blank
  | word (text : List Char)
  | number (text : List Char)
  | mark (text : List Char)

namespace Pending

/-- The token goes on with the character. -/
def takes : Pending → Char → Bool
  | .blank, _ => false
  | .word _, c => isPart c
  | .number _, c => isPart c || c == '.'
  | .mark text, c => c ∈ continuations text

/-- What has been read with one more character. -/
def add : Pending → Char → Pending
  | .blank, _ => .blank
  | .word text, c => .word (text ++ [c])
  | .number text, c => .number (text ++ [c])
  | .mark text, c => .mark (text ++ [c])

/-- What has been read after the first character. -/
def start (c : Char) : Pending :=
  if c == ' ' then .blank
  else if isLetter c then .word [c]
  else if c.isDigit then .number [c]
  else .mark [c]

/-- The token, when nothing more comes. -/
def token? : Pending → List Token
  | .blank => []
  | .word text => [wordToken (String.ofList text)]
  | .number text => [.number text]
  | .mark text => [markToken text]

/-- Nothing can be added. -/
def isClosed : Pending → Bool
  | .blank => true
  | .mark text => (continuations text).isEmpty
  | _ => false

end Pending

/-- The tokens of a line, after what has been read. -/
def lexFrom : Pending → List Char → List Token
  | pending, [] => pending.token?
  | pending, c :: rest =>
    if pending.takes c then lexFrom (pending.add c) rest
    else pending.token? ++ lexFrom (Pending.start c) rest

/-- The tokens of a line. -/
def lex (line : List Char) : List Token := lexFrom .blank line

/-- A line may end and the next one begin here: what is returned follows on the same line, and no
line begins with an arrow. -/
def standsAlone (line : List Token) : Bool :=
  line.getLast? != some (.keyword .returnWord) && line.head? != some (.mark .arrow)

/-- The tokens of a line that may stand alone. -/
def lineTokens (line : List Char) : List Token :=
  if standsAlone (lex line) then lex line else [.unknown]

/-- The tokens of a text. -/
def tokens (text : String) : List Token := (text.toList.splitOn '\n').flatMap lineTokens

/-! ### Words and numbers at the front -/

/-- The token ends before the text. -/
theorem lexFrom_stop {pending : Pending} {rest : List Char}
    (stops : ∀ c ∈ rest.head?, pending.takes c = false) :
    lexFrom pending rest = pending.token? ++ lex rest := by
  cases rest with
  | nil => exact (List.append_nil _).symm
  | cons c rest =>
    rw [lexFrom, stops c rfl, if_neg Bool.false_ne_true]
    rfl

theorem lexFrom_word {part : List Char} (isParts : part.all isPart = true) (text rest : List Char) :
    lexFrom (.word text) (part ++ rest) = lexFrom (.word (text ++ part)) rest := by
  induction part generalizing text with
  | nil => rw [List.append_nil, List.nil_append]
  | cons c part ih =>
    obtain ⟨own, others⟩ := Bool.and_eq_true_iff.mp isParts
    have own : Pending.takes (.word text) c = true := own
    rw [List.cons_append, lexFrom, if_pos own, Pending.add, ih others, List.append_assoc,
      List.singleton_append]

theorem lexFrom_number {part : List Char} (isParts : ∀ c ∈ part, isPart c = true ∨ c = '.')
    (text rest : List Char) :
    lexFrom (.number text) (part ++ rest) = lexFrom (.number (text ++ part)) rest := by
  induction part generalizing text with
  | nil => rw [List.append_nil, List.nil_append]
  | cons c part ih =>
    have own : Pending.takes (.number text) c = true := by
      rw [Pending.takes, Bool.or_eq_true, beq_iff_eq]
      exact isParts c List.mem_cons_self
    rw [List.cons_append, lexFrom, if_pos own, Pending.add,
      ih fun other member => isParts other (List.mem_cons_of_mem _ member), List.append_assoc,
      List.singleton_append]

theorem lex_cons (c : Char) (rest : List Char) :
    lex (c :: rest) = lexFrom (Pending.start c) rest := rfl

theorem start_letter {c : Char} (letter : isLetter c = true) : Pending.start c = .word [c] := by
  have visible : (c == ' ') = false := by
    rw [beq_eq_false_iff_ne]
    rintro rfl
    cases letter
  rw [Pending.start, visible, if_neg Bool.false_ne_true, if_pos letter]

theorem start_digit {c : Char} (digit : c.isDigit = true) : Pending.start c = .number [c] := by
  have visible : (c == ' ') = false := by
    rw [beq_eq_false_iff_ne]
    rintro rfl
    cases digit
  have within : 48 ≤ c.toNat ∧ c.toNat ≤ 57 := by
    simpa [Char.isDigit, UInt32.le_iff_toNat_le] using digit
  have digits : ∀ n < 58, 48 ≤ n → isLetter (Char.ofNat n) = false := by decide
  have noLetter : isLetter c = false := by
    rw [← Char.ofNat_toNat c]
    exact digits c.toNat (by omega) within.1
  rw [Pending.start, visible, if_neg Bool.false_ne_true, noLetter, if_neg Bool.false_ne_true,
    if_pos digit]

/-- **A word is read up to what it cannot go on with.** -/
theorem lex_word (text : String) (begins : text.toList.head?.any isLetter = true)
    (isParts : text.toList.all isPart = true) {rest : List Char}
    (stops : ∀ c ∈ rest.head?, isPart c = false) :
    lex (text.toList ++ rest) = wordToken text :: lex rest := by
  cases letters : text.toList with
  | nil =>
    rw [letters] at begins
    cases begins
  | cons c part =>
    rw [letters] at begins isParts
    have own : text = String.ofList (c :: part) := by rw [← letters, String.ofList_toList]
    rw [List.cons_append, lex_cons, start_letter begins,
      lexFrom_word (Bool.and_eq_true_iff.mp isParts).2, lexFrom_stop stops, own]
    rfl

/-- A name is read as this name. -/
theorem lex_name {name : String} (isOne : isName name = true) {rest : List Char}
    (stops : ∀ c ∈ rest.head?, isPart c = false) :
    lex (name.toList ++ rest) = .name name :: lex rest := by
  simp only [isName, Bool.and_eq_true, Option.isNone_iff_eq_none, decide_eq_true_eq] at isOne
  obtain ⟨⟨⟨begins, isParts⟩, noKeyword⟩, notReserved⟩ := isOne
  rw [lex_word name begins isParts stops, wordToken, noKeyword, if_neg notReserved]

/-- **A number is read up to what it cannot go on with.** -/
theorem lex_number {c : Char} {part : List Char} (digit : c.isDigit = true)
    (isParts : ∀ c ∈ part, isPart c = true ∨ c = '.') {rest : List Char}
    (stops : ∀ c ∈ rest.head?, isPart c = false ∧ c ≠ '.') :
    lex (c :: part ++ rest) = .number (c :: part) :: lex rest := by
  have ends : ∀ d ∈ rest.head?, Pending.takes (.number ([c] ++ part)) d = false := by
    intro d first
    rw [Pending.takes, Bool.or_eq_false_iff, beq_eq_false_iff_ne]
    exact stops d first
  rw [List.cons_append, lex_cons, start_digit digit, lexFrom_number isParts, lexFrom_stop ends]
  rfl

/-! ### Pieces -/

/-- What is read of a piece of a line: the tokens, and what is begun. -/
def scan : Pending → List Char → List Token × Pending
  | pending, [] => ([], pending)
  | pending, c :: rest =>
    if pending.takes c then scan (pending.add c) rest
    else (pending.token? ++ (scan (Pending.start c) rest).1, (scan (Pending.start c) rest).2)

theorem lexFrom_append (pending : Pending) (piece rest : List Char) :
    lexFrom pending (piece ++ rest) =
      (scan pending piece).1 ++ lexFrom (scan pending piece).2 rest := by
  induction piece generalizing pending with
  | nil => rfl
  | cons c piece ih =>
    rw [List.cons_append, lexFrom, scan]
    split
    · exact ih _
    · rw [ih, List.append_assoc]

/-- **A piece is read as its tokens** when its last one does not go on with what follows. -/
theorem lex_scan (piece rest : List Char)
    (stops : ∀ c ∈ rest.head?, (scan .blank piece).2.takes c = false) :
    lex (piece ++ rest) = (scan .blank piece).1 ++ (scan .blank piece).2.token? ++ lex rest := by
  rw [lex, lexFrom_append, lexFrom_stop stops, List.append_assoc]

/-- The tokens of a piece whose last token cannot go on. -/
def pieceTokens? (piece : String) : Option (List Token) :=
  let scanned := scan .blank piece.toList
  if scanned.2.isClosed then some (scanned.1 ++ scanned.2.token?) else none

/-- Such a piece is read as its tokens, whatever follows. -/
theorem lex_piece (piece : String) {read : List Token} (isRead : pieceTokens? piece = some read)
    (rest : List Char) : lex (piece.toList ++ rest) = read ++ lex rest := by
  unfold pieceTokens? at isRead
  dsimp only at isRead
  split at isRead
  case isFalse => cases isRead
  case isTrue closed =>
    rw [← Option.some.inj isRead]
    refine lex_scan _ rest fun c _ => ?_
    cases pending : (scan .blank piece.toList).2 with
    | blank => rfl
    | mark text =>
      rw [pending, Pending.isClosed, List.isEmpty_iff] at closed
      rw [Pending.takes, closed]
      rfl
    | word | number =>
      rw [pending] at closed
      cases closed

end Easing.Script
