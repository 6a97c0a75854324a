/-
**The texts of JSON, and what is read from them.**

A tree is a JSON value together with the form of its numbers and of its texts in quotes; what is
left open is the blanks between its words. All texts of a tree are read as its value: nothing is
lost at any depth, and what follows the text of a value is found where it begins.

* `NumberForm`, `Letter`: how a number and a character in quotes are written.
* `Tree`: JSON texts up to blanks; `Tree.words` are its tokens as they are written.
* `Spaced`: a text made of words, with blanks between them.
* `build_tree`: inside any open arrays and objects, the text of a tree is read as its value.
* `Tree.ofText_eq`: a whole text.
-/
import Easing.Json.Value
import Easing.Proofs.Decimal.Text

set_option linter.unusedSectionVars false

namespace Easing.Json

open Decimal (AllDigits ofDigits)

/-! ### Numbers -/

/-- How an exponent is written. -/
structure ExponentForm where
  mark : Char
  sign : List Char
  digits : List Char
  isMark : mark = 'e' ∨ mark = 'E'
  isSign : sign = [] ∨ sign = ['+'] ∨ sign = ['-']
  nonempty : digits ≠ []
  allDigits : AllDigits digits

/-- How a number is written. A number without digits after a point has no point. -/
structure NumberForm where
  negative : Bool
  whole : List Char
  fraction : List Char
  exponent : Option ExponentForm
  nonempty : whole ≠ []
  wholeDigits : AllDigits whole
  /-- A zero is not followed by digits. -/
  plain : ∀ rest, whole = '0' :: rest → rest = []
  fractionDigits : AllDigits fraction

namespace ExponentForm

def text (form : ExponentForm) : List Char := form.mark :: (form.sign ++ form.digits)

def value (form : ExponentForm) : ℤ :=
  if form.sign = ['-'] then -ofDigits form.digits else ofDigits form.digits

end ExponentForm

namespace NumberForm

def exponentText (form : NumberForm) : List Char :=
  match form.exponent with
  | none => []
  | some exponent => exponent.text

/-- The text without the sign. -/
def digitsText (form : NumberForm) : List Char :=
  form.whole ++ (Decimal.Spelling.pointText form.fraction ++ form.exponentText)

def text (form : NumberForm) : List Char :=
  (if form.negative then ['-'] else []) ++ form.digitsText

def number (form : NumberForm) : Number :=
  .complete form.negative form.whole form.fraction (form.exponent.map ExponentForm.value)

end NumberForm

/-- A number does not go on here. -/
def Stops (rest : List Char) : Prop :=
  ∀ c ∈ rest.head?, c.isDigit = false ∧ c ≠ '.' ∧ c ≠ 'e' ∧ c ≠ 'E'

theorem spanDigits_append {digits rest : List Char} (all : AllDigits digits)
    (stops : ∀ c ∈ rest.head?, c.isDigit = false) : spanDigits (digits ++ rest) = (digits, rest) := by
  unfold spanDigits
  rw [List.takeWhile_append_of_pos all, List.dropWhile_append_of_pos all]
  cases rest with
  | nil => rw [List.takeWhile_nil, List.dropWhile_nil, List.append_nil]
  | cons c rest =>
    have other : ¬c.isDigit = true := by rw [stops c rfl]; exact Bool.false_ne_true
    rw [List.takeWhile_cons_of_neg other, List.dropWhile_cons_of_neg other, List.append_nil]

theorem spanSign_digits {c : Char} (digit : c.isDigit = true) (rest : List Char) :
    spanSign (c :: rest) = (false, c :: rest) := by
  have notPlus : c ≠ '+' := fun same => absurd digit (by rw [same]; decide)
  have notMinus : c ≠ '-' := fun same => absurd digit (by rw [same]; decide)
  simp [spanSign, notPlus, notMinus]

theorem spanSign_form (form : ExponentForm) (rest : List Char) :
    spanSign (form.sign ++ (form.digits ++ rest)) =
      (decide (form.sign = ['-']), form.digits ++ rest) := by
  rcases form.isSign with sign | sign | sign <;> rw [sign]
  · obtain ⟨c, more, digits⟩ := List.exists_cons_of_ne_nil form.nonempty
    have digit := form.allDigits c (by rw [digits]; exact List.mem_cons_self)
    rw [digits, List.nil_append, List.cons_append, spanSign_digits digit]
    rfl
  · rfl
  · rfl

theorem lexExponent_form (form : ExponentForm) (negative : Bool) (whole fraction : List Char)
    {rest : List Char} (stops : Stops rest) :
    lexExponent negative whole fraction (form.sign ++ (form.digits ++ rest)) =
      (.number (.complete negative whole fraction (some form.value)), rest) := by
  have spanned := spanDigits_append form.allDigits fun c head => (stops c head).1
  have some : ¬form.digits.isEmpty = true := by
    rw [List.isEmpty_iff]
    exact form.nonempty
  unfold lexExponent
  simp only [spanSign_form, spanned, if_neg some, decide_eq_true_eq, ExponentForm.value]

/-- After the digits of a number stands its exponent, if it has one. -/
theorem lexMark_form (form : NumberForm) (whole fraction : List Char) {rest : List Char}
    (stops : Stops rest) :
    lexMark form.negative whole fraction (form.exponentText ++ rest) =
      (.number (.complete form.negative whole fraction (form.exponent.map ExponentForm.value)),
        rest) := by
  unfold NumberForm.exponentText
  cases form.exponent with
  | none =>
    dsimp only
    rw [List.nil_append]
    unfold lexMark
    split
    · exact absurd rfl (stops 'e' rfl).2.2.1
    · exact absurd rfl (stops 'E' rfl).2.2.2
    · rfl
  | some exponent =>
    have marked : lexMark form.negative whole fraction (exponent.text ++ rest) =
        lexExponent form.negative whole fraction (exponent.sign ++ (exponent.digits ++ rest)) := by
      unfold ExponentForm.text
      rw [List.cons_append, List.append_assoc]
      rcases exponent.isMark with mark | mark <;> rw [mark] <;> rfl
    dsimp only
    rw [marked, lexExponent_form exponent _ _ _ stops]
    rfl

/-- An exponent does not go on with digits. -/
theorem NumberForm.exponentText_head (form : NumberForm) {rest : List Char} (stops : Stops rest) :
    ∀ c ∈ (form.exponentText ++ rest).head?, c.isDigit = false ∧ c ≠ '.' := by
  unfold NumberForm.exponentText
  cases form.exponent with
  | none => exact fun c head => ⟨(stops c head).1, (stops c head).2.1⟩
  | some exponent =>
    intro c head
    obtain rfl : exponent.mark = c := Option.some.inj head
    rcases exponent.isMark with mark | mark <;> rw [mark] <;> decide

theorem lexFraction_form (form : NumberForm) {rest : List Char} (stops : Stops rest) :
    lexFraction form.negative form.whole
        (Decimal.Spelling.pointText form.fraction ++ form.exponentText ++ rest) =
      (.number form.number, rest) := by
  have head := form.exponentText_head stops
  unfold Decimal.Spelling.pointText NumberForm.number
  split
  case isTrue none =>
    rw [none, List.nil_append]
    have away : ∀ after : List Char, (∀ c ∈ after.head?, c.isDigit = false ∧ c ≠ '.') →
        lexFraction form.negative form.whole after =
          lexMark form.negative form.whole [] after := by
      intro after head
      unfold lexFraction
      split
      · exact absurd rfl (head '.' rfl).2
      · rfl
    rw [away _ head, lexMark_form form _ _ stops]
  case isFalse some =>
    have spanned := spanDigits_append form.fractionDigits fun c first => (head c first).1
    have notEmpty : ¬form.fraction.isEmpty = true := by
      rw [List.isEmpty_iff]
      exact some
    rw [List.append_assoc, List.cons_append]
    unfold lexFraction
    simp only [spanned, if_neg notEmpty, lexMark_form form _ _ stops]

/-- The digits of a number do not go on after its whole part. -/
theorem NumberForm.pointText_head (form : NumberForm) {rest : List Char} (stops : Stops rest) :
    ∀ c ∈ (Decimal.Spelling.pointText form.fraction ++ form.exponentText ++ rest).head?,
      c.isDigit = false := by
  unfold Decimal.Spelling.pointText
  split
  · exact fun c head => (form.exponentText_head stops c head).1
  · intro c head
    obtain rfl : '.' = c := Option.some.inj head
    decide

theorem lexNumber_form (form : NumberForm) {rest : List Char} (stops : Stops rest) :
    lexNumber form.negative form.whole
        (Decimal.Spelling.pointText form.fraction ++ form.exponentText ++ rest) =
      (.number form.number, rest) := by
  rw [← lexFraction_form form stops]
  unfold lexNumber
  split
  case h_1 none => exact absurd none form.nonempty
  case h_2 more zero => exact absurd (form.plain _ zero) (List.cons_ne_nil _ _)
  case h_3 => rfl

/-! ### Texts in quotes -/

/-- How a character in quotes is written. -/
inductive Letter where
  | plain (c : Char) (high : 32 ≤ c.toNat) (noQuote : c ≠ '"') (noSlash : c ≠ '\\')
  | short (c meaning : Char) (escape : shortEscape? c = some meaning)
  | code (a b c d : Char) (unit : Nat) (hex : Text.ofHex? [a, b, c, d] = some unit)

namespace Letter

def text : Letter → List Char
  | .plain c .. => [c]
  | .short c .. => ['\\', c]
  | .code a b c d .. => ['\\', 'u', a, b, c, d]

def piece : Letter → Piece
  | .plain c .. => .plain c
  | .short _ meaning _ => .plain meaning
  | .code _ _ _ _ unit _ => .code unit

end Letter

/-- The text of letters in quotes. -/
def quotedText (letters : List Letter) : List Char := '"' :: (letters.flatMap Letter.text ++ ['"'])

/-- The token of letters in quotes. -/
def quoted (letters : List Letter) : Quoted := ⟨joinPieces none (letters.map Letter.piece), none⟩

/-- A character that needs no escape. -/
def IsPlain (c : Char) : Prop := 32 ≤ c.toNat ∧ c ≠ '"' ∧ c ≠ '\\'

instance (c : Char) : Decidable (IsPlain c) := inferInstanceAs (Decidable (_ ∧ _))

/-- The letters of a text without escapes. -/
def plainLetters (text : List Char) : List Letter :=
  text.filterMap fun c =>
    if plain : IsPlain c then some (.plain c plain.1 plain.2.1 plain.2.2) else none

theorem plainLetters_cons {c : Char} (plain : IsPlain c) (text : List Char) :
    plainLetters (c :: text) = .plain c plain.1 plain.2.1 plain.2.2 :: plainLetters text :=
  List.filterMap_cons_some (dif_pos plain)

theorem text_plainLetters {text : List Char} (plain : ∀ c ∈ text, IsPlain c) :
    (plainLetters text).flatMap Letter.text = text := by
  induction text with
  | nil => rfl
  | cons c text ih =>
    rw [plainLetters_cons (plain c List.mem_cons_self), List.flatMap_cons,
      ih fun d member => plain d (List.mem_cons_of_mem _ member)]
    rfl

/-- Characters that need no escape spell themselves. -/
theorem strict_plainLetters {text : List Char} (plain : ∀ c ∈ text, IsPlain c) :
    (quoted (plainLetters text)).strict = .ok text := by
  unfold quoted
  dsimp only
  induction text with
  | nil => rfl
  | cons c text ih =>
    rw [plainLetters_cons (plain c List.mem_cons_self), List.map_cons]
    show (joinPieces none _).map _ = _
    rw [ih fun d member => plain d (List.mem_cons_of_mem _ member)]
    rfl

theorem scanText_letter (letter : Letter) (rest : List Char) :
    scanText (letter.text ++ rest) = (scanText rest).cons letter.piece := by
  cases letter with
  | plain c high noQuote noSlash =>
    show scanText (c :: rest) = _
    rw [scanText]
    · rw [if_neg (Nat.not_lt.mpr high)]
      rfl
    · exact noQuote
    -- no escape begins with this character
    all_goals
      intros
      exact noSlash (by assumption)
  | short c meaning escape =>
    have noUnit : c ≠ 'u' := by
      rintro rfl
      cases escape
    show scanText ('\\' :: c :: rest) = _
    rw [scanText, escape]
    · rfl
    all_goals
      intros
      exact noUnit (by assumption)
  | code a b c d unit hex =>
    show scanText ('\\' :: 'u' :: a :: b :: c :: d :: rest) = _
    rw [scanText, hex]
    rfl

/-- Letters in quotes are scanned up to the closing quote. -/
theorem scanText_letters (letters : List Letter) (rest : List Char) :
    scanText (letters.flatMap Letter.text ++ '"' :: rest) =
      ⟨letters.map Letter.piece, none, rest⟩ := by
  induction letters with
  | nil => rfl
  | cons letter letters ih =>
    rw [List.flatMap_cons, List.append_assoc, scanText_letter, ih]
    rfl

/-! ### Words -/

/-- A text that begins with a word has its token, when what follows is as required. -/
def Reads (required : List Char → Prop) (word : List Char) (token : Token) : Prop :=
  ∃ c tail, word = c :: tail ∧ isBlank c = false ∧
    ∀ rest, required rest → lexFrom c (tail ++ rest) = (token, rest)

/-- Nothing is required of what follows a word. -/
def Anything (_ : List Char) : Prop := True

theorem reads_mark {c : Char} {token : Token} (ink : isBlank c = false)
    (here : ∀ rest, lexFrom c rest = (token, rest)) : Reads Anything [c] token :=
  ⟨c, [], rfl, ink, fun rest _ => here rest⟩

theorem reads_null : Reads Anything ['n', 'u', 'l', 'l'] .null :=
  ⟨'n', _, rfl, by decide, fun _ _ => rfl⟩

theorem reads_true : Reads Anything ['t', 'r', 'u', 'e'] (.boolean true) :=
  ⟨'t', _, rfl, by decide, fun _ _ => rfl⟩

theorem reads_false : Reads Anything ['f', 'a', 'l', 's', 'e'] (.boolean false) :=
  ⟨'f', _, rfl, by decide, fun _ _ => rfl⟩

theorem reads_openArray : Reads Anything ['['] .openArray := reads_mark (by decide) fun _ => rfl

theorem reads_closeArray : Reads Anything [']'] .closeArray := reads_mark (by decide) fun _ => rfl

theorem reads_openObject : Reads Anything ['\x7b'] .openObject :=
  reads_mark (by decide) fun _ => rfl

theorem reads_closeObject : Reads Anything ['\x7d'] .closeObject :=
  reads_mark (by decide) fun _ => rfl

theorem reads_comma : Reads Anything [','] .comma := reads_mark (by decide) fun _ => rfl

theorem reads_colon : Reads Anything [':'] .colon := reads_mark (by decide) fun _ => rfl

theorem reads_quotedText (letters : List Letter) :
    Reads Anything (quotedText letters) (.text (quoted letters)) := by
  refine ⟨'"', _, rfl, by decide, fun rest _ => ?_⟩
  show lexText _ = _
  unfold lexText
  rw [List.append_assoc, List.singleton_append, scanText_letters]
  rfl

theorem ink_of_digit {c : Char} (digit : c.isDigit = true) : isBlank c = false := by
  unfold isBlank
  simp only [Bool.or_eq_false_iff, beq_eq_false_iff_ne]
  refine ⟨⟨⟨?_, ?_⟩, ?_⟩, ?_⟩ <;> rintro rfl <;> exact absurd digit (by decide)

/-- A token that begins with a digit is a number. -/
theorem lexFrom_digit {c : Char} (digit : c.isDigit = true) (rest : List Char) :
    lexFrom c rest = lexNumber false (spanDigits (c :: rest)).1 (spanDigits (c :: rest)).2 := by
  have spanned : spanDigits (c :: rest) = (c :: (spanDigits rest).1, (spanDigits rest).2) := by
    unfold spanDigits
    rw [List.takeWhile_cons_of_pos digit, List.dropWhile_cons_of_pos digit]
  rw [spanned]
  unfold lexFrom
  split
  case h_12 => rw [if_pos digit]
  all_goals exact absurd digit (by decide)

theorem reads_number (form : NumberForm) : Reads Stops form.text (.number form.number) := by
  have spanned : ∀ rest, Stops rest → spanDigits (form.digitsText ++ rest) =
      (form.whole, Decimal.Spelling.pointText form.fraction ++ form.exponentText ++ rest) := by
    intro rest stops
    unfold NumberForm.digitsText
    rw [List.append_assoc, List.append_assoc, ← List.append_assoc (Decimal.Spelling.pointText _)]
    exact spanDigits_append form.wholeDigits (form.pointText_head stops)
  cases negative : form.negative with
  | true =>
    refine ⟨'-', form.digitsText, ?_, by decide, fun rest stops => ?_⟩
    · unfold NumberForm.text
      rw [negative]
      rfl
    · have whole := lexNumber_form form stops
      rw [negative] at whole
      show lexNumber true (spanDigits _).1 (spanDigits _).2 = _
      rw [spanned rest stops]
      exact whole
  | false =>
    obtain ⟨first, more, isWhole⟩ := List.exists_cons_of_ne_nil form.nonempty
    have digit := form.wholeDigits first (by rw [isWhole]; exact List.mem_cons_self)
    have text : form.text = first :: (more ++ (Decimal.Spelling.pointText form.fraction ++
        form.exponentText)) := by
      unfold NumberForm.text NumberForm.digitsText
      rw [negative, isWhole]
      rfl
    refine ⟨first, _, text, ink_of_digit digit, fun rest stops => ?_⟩
    have whole := lexNumber_form form stops
    rw [negative] at whole
    have digits := spanned rest stops
    unfold NumberForm.digitsText at digits
    rw [lexFrom_digit digit, ← List.cons_append, ← List.cons_append, ← isWhole, digits]
    exact whole

/-- A text made of words, with any blanks before, between and after them. -/
inductive Spaced : List (List Char) → List Char → Prop where
  | nil {blanks : List Char} (all : ∀ c ∈ blanks, isBlank c = true) : Spaced [] blanks
  | cons {blanks word rest : List Char} {words : List (List Char)}
      (all : ∀ c ∈ blanks, isBlank c = true) (later : Spaced words rest) :
      Spaced (word :: words) (blanks ++ (word ++ rest))

/-- Words without blanks between them. -/
theorem Spaced.flatten (words : List (List Char)) : Spaced words words.flatten := by
  induction words with
  | nil => exact .nil nofun
  | cons word words ih => exact @Spaced.cons [] _ _ _ nofun ih

theorem lex_blanks {blanks : List Char} (all : ∀ c ∈ blanks, isBlank c = true)
    (rest : List Char) : lex (blanks ++ rest) = lex rest := by
  induction blanks with
  | nil => rfl
  | cons c blanks ih =>
    rw [List.cons_append, lex, if_pos (all c List.mem_cons_self),
      ih fun d member => all d (List.mem_cons_of_mem _ member)]

theorem Spaced.lex_nil {text : List Char} (spaced : Spaced [] text) : lex text = [] := by
  cases spaced with
  | nil all =>
    have blank := lex_blanks all []
    rwa [List.append_nil, lex] at blank

/-- The first word of a text is its first token. -/
theorem Spaced.lex_before {required : List Char → Prop} {word text : List Char}
    {words : List (List Char)} {token : Token} (spaced : Spaced (word :: words) text)
    (reads : Reads required word token) (meets : ∀ rest, Spaced words rest → required rest) :
    ∃ rest, Spaced words rest ∧ lex text = token :: lex rest := by
  cases spaced with
  | cons all later =>
    rename_i blanks rest
    obtain ⟨c, tail, rfl, ink, here⟩ := reads
    refine ⟨rest, later, ?_⟩
    have one := here rest (meets rest later)
    rw [lex_blanks all, List.cons_append, lex, if_neg (by rw [ink]; exact Bool.false_ne_true), one]

/-- The first word of a text is its first token, whatever follows. -/
theorem Spaced.lex_cons {word text : List Char} {words : List (List Char)} {token : Token}
    (spaced : Spaced (word :: words) text) (reads : Reads Anything word token) :
    ∃ rest, Spaced words rest ∧ lex text = token :: lex rest :=
  spaced.lex_before reads fun _ _ => trivial

/-! ### Trees -/

/-- A JSON text up to the blanks between its words. -/
inductive Tree where
  | null
  | boolean (value : Bool)
  | number (form : NumberForm)
  | text (letters : List Letter)
  | array (items : List Tree)
  | object (fields : List (List Letter × Tree))

namespace Tree

mutual

/-- The value that is read from a tree. -/
def value : Tree → Value
  | .null => .null
  | .boolean b => .boolean b
  | .number form => .number form.number
  | .text letters => .text (quoted letters)
  | .array items => .array (values items) none
  | .object fields => .object (fieldValues fields) none none

/-- The values of entries. -/
def values : List Tree → List Value
  | [] => []
  | tree :: rest => value tree :: values rest

/-- The keys and the values of fields. -/
def fieldValues : List (List Letter × Tree) → List (Quoted × Value)
  | [] => []
  | (key, tree) :: rest => (quoted key, value tree) :: fieldValues rest

end

mutual

/-- The words of a tree. -/
def words : Tree → List (List Char)
  | .null => [['n', 'u', 'l', 'l']]
  | .boolean true => [['t', 'r', 'u', 'e']]
  | .boolean false => [['f', 'a', 'l', 's', 'e']]
  | .number form => [form.text]
  | .text letters => [quotedText letters]
  | .array [] => [['['], [']']]
  | .array (tree :: rest) => ['['] :: (words tree ++ itemWords rest ++ [[']']])
  | .object [] => [['\x7b'], ['\x7d']]
  | .object ((key, tree) :: rest) =>
    ['\x7b'] :: quotedText key :: [':'] :: (words tree ++ fieldWords rest ++ [['\x7d']])

/-- The words of further entries, each after a comma. -/
def itemWords : List Tree → List (List Char)
  | [] => []
  | tree :: rest => [','] :: (words tree ++ itemWords rest)

/-- The words of further fields, each after a comma. -/
def fieldWords : List (List Letter × Tree) → List (List Char)
  | [] => []
  | (key, tree) :: rest =>
    [','] :: quotedText key :: [':'] :: (words tree ++ fieldWords rest)

end

/-- What follows a value in a text: nothing, a comma or the end of an array or of an object. -/
def Closed (words : List (List Char)) : Prop :=
  ∀ word ∈ words.head?, word = [','] ∨ word = [']'] ∨ word = ['\x7d']

theorem Closed.stops {words : List (List Char)} (closed : Closed words) {rest : List Char}
    (spaced : Spaced words rest) : Stops rest := by
  have blank : ∀ c, isBlank c = true → c.isDigit = false ∧ c ≠ '.' ∧ c ≠ 'e' ∧ c ≠ 'E' := by
    intro c blank
    unfold isBlank at blank
    simp only [Bool.or_eq_true, beq_iff_eq] at blank
    rcases blank with ((rfl | rfl) | rfl) | rfl <;> decide
  intro c head
  cases spaced with
  | nil all => exact blank c (all c (List.mem_of_mem_head? head))
  | cons all later =>
    rename_i blanks word rest words
    cases blanks with
    | nil =>
      rcases closed word rfl with rfl | rfl | rfl <;> obtain rfl := Option.some.inj head <;> decide
    | cons first blanks =>
      obtain rfl : first = c := Option.some.inj head
      exact blank first (all first List.mem_cons_self)

/-- The first token of a tree does not end an array. -/
theorem lex_first (tree : Tree) {words : List (List Char)} (closed : Closed words)
    {text : List Char} (spaced : Spaced (tree.words ++ words) text) :
    ∃ token rest, lex text = token :: rest ∧ token ≠ .closeArray := by
  cases tree with
  | null =>
    obtain ⟨rest, -, lexed⟩ := spaced.lex_cons reads_null
    exact ⟨_, _, lexed, nofun⟩
  | boolean b =>
    cases b with
    | true =>
      obtain ⟨rest, -, lexed⟩ := spaced.lex_cons reads_true
      exact ⟨_, _, lexed, nofun⟩
    | false =>
      obtain ⟨rest, -, lexed⟩ := spaced.lex_cons reads_false
      exact ⟨_, _, lexed, nofun⟩
  | number form =>
    obtain ⟨rest, -, lexed⟩ := spaced.lex_before (reads_number form) fun _ => closed.stops
    exact ⟨_, _, lexed, nofun⟩
  | text letters =>
    obtain ⟨rest, -, lexed⟩ := spaced.lex_cons (reads_quotedText letters)
    exact ⟨_, _, lexed, nofun⟩
  | array items =>
    cases items <;> obtain ⟨rest, -, lexed⟩ := spaced.lex_cons reads_openArray <;>
      exact ⟨_, _, lexed, nofun⟩
  | object fields =>
    rcases fields with _ | ⟨⟨key, tree⟩, fields⟩ <;>
      obtain ⟨rest, -, lexed⟩ := spaced.lex_cons reads_openObject <;>
      exact ⟨_, _, lexed, nofun⟩

theorem closed_itemWords (items : List Tree) (words : List (List Char)) :
    Closed (itemWords items ++ [']'] :: words) := by
  intro word head
  cases items with
  | nil => exact .inr (.inl (Option.some.inj head).symm)
  | cons tree rest => exact .inl (Option.some.inj head).symm

theorem closed_fieldWords (fields : List (List Letter × Tree)) (words : List (List Char)) :
    Closed (fieldWords fields ++ ['\x7d'] :: words) := by
  intro word head
  rcases fields with _ | ⟨⟨key, tree⟩, rest⟩
  · exact .inr (.inr (Option.some.inj head).symm)
  · exact .inl (Option.some.inj head).symm

mutual

/-- **The text of a tree is read as its value**, inside any open arrays and objects, and what
follows it is found where it begins. -/
theorem build_tree (tree : Tree) (frames : List Frame) {words : List (List Char)}
    (closed : Closed words) {text : List Char} (spaced : Spaced (tree.words ++ words) text) :
    ∃ rest, Spaced words rest ∧
      build .value frames (lex text) = build (.after tree.value) frames (lex rest) := by
  cases tree with
  | null =>
    obtain ⟨rest, later, lexed⟩ := spaced.lex_cons reads_null
    exact ⟨rest, later, by rw [lexed]; rfl⟩
  | boolean b =>
    cases b with
    | true =>
      obtain ⟨rest, later, lexed⟩ := spaced.lex_cons reads_true
      exact ⟨rest, later, by rw [lexed]; rfl⟩
    | false =>
      obtain ⟨rest, later, lexed⟩ := spaced.lex_cons reads_false
      exact ⟨rest, later, by rw [lexed]; rfl⟩
  | number form =>
    obtain ⟨rest, later, lexed⟩ := spaced.lex_before (reads_number form) fun _ => closed.stops
    exact ⟨rest, later, by rw [lexed]; rfl⟩
  | text letters =>
    obtain ⟨rest, later, lexed⟩ := spaced.lex_cons (reads_quotedText letters)
    exact ⟨rest, later, by rw [lexed]; rfl⟩
  | array items =>
    cases items with
    | nil =>
      obtain ⟨middle, later, opened⟩ := spaced.lex_cons reads_openArray
      obtain ⟨rest, later, lexed⟩ := later.lex_cons reads_closeArray
      exact ⟨rest, later, by rw [opened, lexed]; rfl⟩
    | cons tree items =>
      obtain ⟨middle, later, opened⟩ := spaced.lex_cons reads_openArray
      replace later : Spaced (tree.words ++ (itemWords items ++ [']'] :: words)) middle := by
        simpa using later
      have next := closed_itemWords items words
      obtain ⟨token, tokens, first, notClose⟩ := lex_first tree next later
      have entered : build .firstItem frames (token :: tokens) =
          build .value (.array [] :: frames) (token :: tokens) := by
        cases token <;> first | rfl | exact absurd rfl notClose
      obtain ⟨rest, later, one⟩ := build_tree tree (.array [] :: frames) next later
      obtain ⟨rest, later, all⟩ := build_items items [] tree.value frames later
      refine ⟨rest, later, ?_⟩
      rw [opened]
      show build .firstItem frames (lex middle) = _
      rw [first, entered, ← first, one, all]
      rfl
  | object fields =>
    rcases fields with _ | ⟨⟨key, tree⟩, fields⟩
    · obtain ⟨middle, later, opened⟩ := spaced.lex_cons reads_openObject
      obtain ⟨rest, later, lexed⟩ := later.lex_cons reads_closeObject
      exact ⟨rest, later, by rw [opened, lexed]; rfl⟩
    · obtain ⟨middle, later, opened⟩ := spaced.lex_cons reads_openObject
      obtain ⟨beyond, later, named⟩ := later.lex_cons (reads_quotedText key)
      obtain ⟨inside, later, colon⟩ := later.lex_cons reads_colon
      replace later : Spaced (tree.words ++ (fieldWords fields ++ ['\x7d'] :: words)) inside := by
        simpa using later
      obtain ⟨rest, later, one⟩ := build_tree tree (.object [] (quoted key) :: frames)
        (closed_fieldWords fields words) later
      obtain ⟨rest, later, all⟩ := build_fields fields [] (quoted key) tree.value frames later
      refine ⟨rest, later, ?_⟩
      rw [opened, named, colon]
      show build .value (.object [] (quoted key) :: frames) (lex inside) = _
      rw [one, all]
      rfl

/-- Further entries of an array, and its end. -/
theorem build_items (items : List Tree) (done : List Value) (last : Value) (frames : List Frame)
    {words : List (List Char)} {text : List Char}
    (spaced : Spaced (itemWords items ++ [']'] :: words) text) :
    ∃ rest, Spaced words rest ∧ build (.after last) (.array done :: frames) (lex text) =
      build (.after (.array ((last :: done).reverse ++ values items) none)) frames (lex rest) := by
  cases items with
  | nil =>
    obtain ⟨rest, later, lexed⟩ := spaced.lex_cons reads_closeArray
    refine ⟨rest, later, ?_⟩
    rw [lexed, values, List.append_nil]
    rfl
  | cons tree items =>
    obtain ⟨middle, later, comma⟩ := spaced.lex_cons reads_comma
    replace later : Spaced (tree.words ++ (itemWords items ++ [']'] :: words)) middle := by
      simpa using later
    obtain ⟨rest, later, one⟩ := build_tree tree (.array (last :: done) :: frames)
      (closed_itemWords items words) later
    obtain ⟨rest, later, all⟩ := build_items items (last :: done) tree.value frames later
    refine ⟨rest, later, ?_⟩
    rw [comma]
    show build .value (.array (last :: done) :: frames) (lex middle) = _
    rw [one, all, values, List.reverse_cons (a := tree.value), List.append_assoc]
    rfl

/-- Further fields of an object, and its end. -/
theorem build_fields (fields : List (List Letter × Tree)) (done : List (Quoted × Value))
    (key : Quoted) (last : Value) (frames : List Frame) {words : List (List Char)}
    {text : List Char} (spaced : Spaced (fieldWords fields ++ ['\x7d'] :: words) text) :
    ∃ rest, Spaced words rest ∧ build (.after last) (.object done key :: frames) (lex text) =
      build (.after (.object (((key, last) :: done).reverse ++ fieldValues fields) none none))
        frames (lex rest) := by
  rcases fields with _ | ⟨⟨name, tree⟩, fields⟩
  · obtain ⟨rest, later, lexed⟩ := spaced.lex_cons reads_closeObject
    refine ⟨rest, later, ?_⟩
    rw [lexed, fieldValues, List.append_nil]
    rfl
  · obtain ⟨beyond, later, comma⟩ := spaced.lex_cons reads_comma
    obtain ⟨middle, later, named⟩ := later.lex_cons (reads_quotedText name)
    obtain ⟨inside, later, colon⟩ := later.lex_cons reads_colon
    replace later : Spaced (tree.words ++ (fieldWords fields ++ ['\x7d'] :: words)) inside := by
      simpa using later
    obtain ⟨rest, later, one⟩ := build_tree tree
      (.object ((key, last) :: done) (quoted name) :: frames) (closed_fieldWords fields words) later
    obtain ⟨rest, later, all⟩ := build_fields fields ((key, last) :: done) (quoted name) tree.value
      frames later
    refine ⟨rest, later, ?_⟩
    rw [comma, named, colon]
    show build .value (.object ((key, last) :: done) (quoted name) :: frames) (lex inside) = _
    rw [one, all, fieldValues, List.reverse_cons (a := (quoted name, tree.value)),
      List.append_assoc]
    rfl

end

/-- A text of a tree, with any blanks between its words. -/
def IsText (tree : Tree) (text : String) : Prop := Spaced tree.words text.toList

/-- **A text of a tree is read as its value**, and nothing follows. -/
theorem IsText.ofText_eq {tree : Tree} {text : String} (isText : tree.IsText text) :
    Document.ofText text = ⟨tree.value, false⟩ := by
  unfold IsText at isText
  rw [← List.append_nil tree.words] at isText
  have closed : Closed [] := fun word head => absurd head (by simp)
  obtain ⟨rest, ended, built⟩ := build_tree tree [] closed isText
  unfold Document.ofText
  rw [built, ended.lex_nil]
  rfl

end Tree

end Easing.Json
