/-
**The texts of scripts are read back.**

What is printed for a tree without annotations is cut into tokens piece by piece, and its tokens are
read as this tree by the grammar. The trees are those in which nothing needs more parentheses than it
is given, all names are names, and all numbers are read back from their digits.

* `Lexes`: the tokens of a text, whatever follows that cannot go on with the last one.
* `Expr.plain`, `Stmt.plain`: such trees.
* `Expr.printed`, `Stmt.printed`: the tokens of a tree, and what they are read as.
* `readFunction_wrapLines`: the text of a function is read as the core of its script.
-/
import Easing.Proofs.Script.Grammar
import Easing.Proofs.Script.Layout
import Easing.Proofs.Script.Wrapping

set_option linter.unusedSectionVars false

namespace Easing.Script

variable {α : Type}

/-! ### Texts and their tokens -/

/-- The tokens of a text, before a character of some kind or at the end. -/
def Lexes (stops : Char → Bool) (text : String) (read : List Token) : Prop :=
  ∀ rest : List Char, (∀ c ∈ rest.head?, stops c = true) →
    lex (text.toList ++ rest) = read ++ lex rest

/-- No word goes on with the character. -/
def endsWord (c : Char) : Bool := !isPart c

/-- No number goes on with the character. -/
def endsNumber (c : Char) : Bool := !isPart c && c != '.'

/-- Whatever follows. -/
def closed (_ : Char) : Bool := true

namespace Lexes

variable {stops stops' : Char → Bool} {text text' : String} {read read' : List Token}

theorem mono (lexes : Lexes stops text read) (fewer : ∀ c, stops' c = true → stops c = true) :
    Lexes stops' text read := fun rest ends => lexes rest fun c first => fewer c (ends c first)

/-- A number can be followed by less than a word. -/
theorem word (lexes : Lexes endsWord text read) : Lexes endsNumber text read :=
  lexes.mono fun _ ends => (Bool.and_eq_true_iff.mp ends).1

theorem of_closed (lexes : Lexes closed text read) : Lexes stops text read :=
  lexes.mono fun _ _ => rfl

theorem piece (text : String) (read : List Token) (isRead : pieceTokens? text = some read) :
    Lexes closed text read :=
  fun rest _ => lex_piece text isRead rest

/-- Two texts, the second of which does not go on with the first. -/
theorem append (lexes : Lexes stops text read) (lexes' : Lexes stops' text' read')
    (apart : text'.toList.head?.any stops = true) :
    Lexes stops' (text ++ text') (read ++ read') := by
  intro rest ends
  rw [String.toList_append, List.append_assoc, List.append_assoc, lexes, lexes' rest ends]
  intro c first
  rw [List.head?_append] at first
  cases head : text'.toList.head? with
  | none =>
    rw [head] at apart
    cases apart
  | some next =>
    rw [head] at apart first
    cases first
    exact apart

/-- The same when nothing goes on with the first one. -/
theorem andThen (lexes : Lexes closed text read) (lexes' : Lexes stops text' read') :
    Lexes stops (text ++ text') (read ++ read') := by
  intro rest ends
  rw [String.toList_append, List.append_assoc, List.append_assoc, lexes _ fun _ _ => rfl,
    lexes' rest ends]

/-- A text before a piece. -/
theorem before (lexes : Lexes stops text read) (text' : String) (read' : List Token)
    (isRead : pieceTokens? text' = some read') (apart : text'.toList.head?.any stops = true) :
    Lexes closed (text ++ text') (read ++ read') :=
  lexes.append (piece text' read' isRead) apart

/-- All tokens of a text that stands alone. -/
theorem alone (lexes : Lexes stops text read) : lex text.toList = read := by
  have all := lexes [] nofun
  rwa [List.append_nil, show lex [] = [] from rfl, List.append_nil] at all

end Lexes

theorem lexes_name {name : String} (isOne : isName name = true) :
    Lexes endsWord name [.name name] :=
  fun _ ends => lex_name isOne fun c first => by simpa [endsWord] using ends c first

/-- The digits of a number, perhaps after a minus, that a literal stands for. -/
inductive Denotes [Neg α] (literal : List Char → Option α) : List Char → α → Prop where
  | plus {c : Char} {part : List Char} {a : α} (digit : c.isDigit = true)
      (isParts : ∀ c ∈ part, isPart c = true ∨ c = '.') (value : literal (c :: part) = some a) :
      Denotes literal (c :: part) a
  | minus {c : Char} {part : List Char} {a : α} (digit : c.isDigit = true)
      (isParts : ∀ c ∈ part, isPart c = true ∨ c = '.') (value : literal (c :: part) = some a) :
      Denotes literal ('-' :: c :: part) (-a)

theorem lex_number_of_digits {c : Char} {part : List Char} (digit : c.isDigit = true)
    (isParts : ∀ c ∈ part, isPart c = true ∨ c = '.') {rest : List Char}
    (ends : ∀ c ∈ rest.head?, endsNumber c = true) :
    lex (c :: part ++ rest) = .number (c :: part) :: lex rest :=
  lex_number digit isParts fun c first => by simpa [endsNumber] using ends c first

theorem lex_minus {c : Char} (digit : c.isDigit = true) (rest : List Char) :
    lex ('-' :: c :: rest) = .mark .minus :: lex (c :: rest) := by
  have apart : c ∉ continuations ['-'] := by
    intro member
    have member : c ∈ ['=', '-'] := member
    simp only [List.mem_cons, List.not_mem_nil, or_false] at member
    rcases member with rfl | rfl <;> cases digit
  exact lex_scan ['-'] (c :: rest) fun d first => by
    cases first
    exact decide_eq_false apart

/-! ### Trees that are read back -/

/-- How strongly an expression binds: an operation as its operator, a condition and a function not
at all, anything else more than all operators. -/
def Expr.strength : Expr α → Nat
  | .binary operator _ _ => operator.strength
  | .choose .. | .function .. => 0
  | _ => 11

/-- The expression can have suffixes. -/
def Expr.isPrimary : Expr α → Bool
  | .variable _ | .call .. | .builtin .. | .item .. | .size _ | .array _ => true
  | _ => false

/-- The expression is a function. -/
def Expr.isFunction : Expr α → Bool
  | .function .. => true
  | _ => false

/-- The statement declares a name. -/
def Simple.declares : Simple α → Bool
  | .constant .. | .constantPair .. | .variable .. => true
  | _ => false

section Plain

variable (reads : α → Bool)

mutual

/-- Every expression inside stands where it needs no parentheses but those of operands and bodies,
names are names, and numbers are of the given kind: no operand is a function, tests are operations,
and entries are those of what can have suffixes. -/
def Expr.plain : Expr α → Bool
  | .literal a => reads a
  | .nan => true
  | .variable name | .incremented name => isName name
  | .binary _ left right =>
    !left.isFunction && !right.isFunction && left.plain && right.plain
  | .choose test yes no => 1 ≤ test.strength && test.plain && yes.plain && no.plain
  | .call callee arguments => isName callee && Expr.allPlain arguments
  | .builtin _ arguments => Expr.allPlain arguments
  | .item entries place => entries.isPrimary && entries.plain && place.plain
  | .size entries => entries.isPrimary && entries.plain
  | .array entries => Expr.allPlain entries
  | .function parameters body => parameters.all isName && body.plain

/-- The same of several expressions. -/
def Expr.allPlain : List (Expr α) → Bool
  | [] => true
  | expr :: rest => expr.plain && Expr.allPlain rest

end

/-- The expression and the names of a statement on one line are plain. -/
def Simple.plain : Simple α → Bool
  | .constant name _ value | .variable name value | .assign name value | .subtract name value
  | .push name value => isName name && value.plain reads
  | .constantPair first second value => isName first && isName second && value.plain reads
  | .result value => value.plain reads
  | .increment name | .decrement name => isName name
  | .leave => true

mutual

/-- All expressions and names of a statement are plain, what stands under a test or in a loop
declares nothing, and the bounds of loops bind more strongly than the order. -/
def Stmt.plain : Stmt α → Bool
  | .simple statement => statement.plain reads
  | .blank => true
  | .longFunction name parameters body =>
    isName name && parameters.all isName && body.plain reads
  | .localFunction name parameters body | .function name parameters _ body =>
    isName name && parameters.all isName && Stmt.allPlain body
  | .guarded test statement | .loopOne test statement =>
    test.plain reads && statement.plain reads && !statement.declares
  | .either test yes no =>
    test.plain reads && yes.plain reads && !yes.declares && no.plain reads && !no.declares
  | .block test body | .loop test body | .loopAfter body test =>
    test.plain reads && Stmt.allPlain body
  | .countOne counter bound statement =>
    isName counter && 8 ≤ bound.strength && bound.plain reads && statement.plain reads &&
      !statement.declares
  | .count counter bound body =>
    isName counter && 8 ≤ bound.strength && bound.plain reads && Stmt.allPlain body
  | .table name _ rows => isName name && Expr.allPlain reads rows

/-- The same of several statements. -/
def Stmt.allPlain : List (Stmt α) → Bool
  | [] => true
  | statement :: rest => statement.plain && Stmt.allPlain rest

end

end Plain

theorem allPlain_append {reads : α → Bool} {front back : List (Stmt α)}
    (isFront : Stmt.allPlain reads front = true) (isBack : Stmt.allPlain reads back = true) :
    Stmt.allPlain reads (front ++ back) = true := by
  induction front with
  | nil => exact isBack
  | cons statement front ih =>
    rw [Stmt.allPlain, Bool.and_eq_true] at isFront
    rw [List.cons_append, Stmt.allPlain, isFront.1, ih isFront.2]
    rfl

/-! ### Parentheses -/

theorem Operator.strength_pos (operator : Operator) : 1 ≤ operator.strength := by
  cases operator <;> decide

theorem Operator.strength_lt (operator : Operator) : operator.strength < 11 := by
  cases operator <;> decide

theorem Operator.strength_of_bracketsLeft {outer inner : Operator}
    (bare : outer.bracketsLeft inner = false) : outer.strength ≤ inner.strength := by
  cases outer <;> cases inner <;> first | decide | cases bare

theorem Operator.strength_of_bracketsRight {outer inner : Operator}
    (bare : outer.bracketsRight inner = false) : outer.strength + 1 ≤ inner.strength := by
  cases outer <;> cases inner <;> first | decide | cases bare

/-- A left operand without parentheses binds as strongly as its operator. -/
theorem Expr.strength_of_bracketedLeft {operator : Operator} {expr : Expr α}
    (notFunction : expr.isFunction = false) (bare : expr.bracketedLeft operator = false) :
    operator.strength ≤ expr.strength := by
  cases expr with
  | binary inner left right => exact Operator.strength_of_bracketsLeft bare
  | choose => cases bare
  | function => cases notFunction
  | _ => exact operator.strength_lt.le

/-- A right operand without parentheses binds more strongly than its operator. -/
theorem Expr.strength_of_bracketedRight {operator : Operator} {expr : Expr α}
    (notFunction : expr.isFunction = false) (bare : expr.bracketedRight operator = false) :
    operator.strength + 1 ≤ expr.strength := by
  cases expr with
  | binary inner left right => exact Operator.strength_of_bracketsRight bare
  | choose => cases bare
  | function => cases notFunction
  | _ => exact operator.strength_lt

/-! ### Parts of a line -/

/-- The mark of an operator. -/
def Operator.mark : Operator → Mark
  | .or => .or
  | .and => .and
  | .equal => .identical
  | .unequal => .distinct
  | .less => .less
  | .atMost => .atMost
  | .greater => .greater
  | .atLeast => .atLeast
  | .shiftRight => .shiftRight
  | .plus => .plus
  | .minus => .minus
  | .times => .times
  | .divide => .divide

theorem Operator.operator?_mark (operator : Operator) :
    operator.mark.operator? = some operator := by
  cases operator <;> rfl

/-- The sign of an operator is its mark. -/
theorem Operator.pieceTokens_sign (operator : Operator) :
    pieceTokens? (" " ++ operator.sign ++ " ") = some [.mark operator.mark] := by
  cases operator <;> rfl

/-- Names with commas between them. -/
theorem lexes_names {names : List String} (all : names.all isName = true) :
    Lexes endsNumber (commas names) (nameTokens names) := by
  unfold commas
  induction names with
  | nil => exact (Lexes.piece "" [] rfl).of_closed
  | cons name rest ih =>
    obtain ⟨own, others⟩ := Bool.and_eq_true_iff.mp all
    cases rest with
    | nil => exact (lexes_name own).word
    | cons next rest =>
      rw [String.intercalate_cons_cons]
      exact ((lexes_name own).before ", " [.mark .comma] rfl rfl).andThen (ih others)

/-- Parameters in parentheses. -/
theorem lexes_signature {names : List String} (all : names.all isName = true) (returns : Kind) :
    Lexes closed (signature .untyped names returns) (parameterTokens names) := by
  have bare : signature .untyped names returns = "(" ++ commas names ++ ")" := by
    have same : names.map (· ++ Kind.number.text .untyped) = names :=
      (List.map_congr_left fun name _ => String.append_empty).trans names.map_id
    unfold signature
    rw [same]
    exact String.append_empty
  rw [bare]
  exact ((Lexes.piece "(" [.mark .openRound] rfl).andThen (lexes_names all)).before ")"
    [.mark .closeRound] rfl rfl

/-- The number of entries of an array. -/
theorem lexes_length : Lexes endsWord ".length" [.mark .dot, .name "length"] := by
  intro rest ends
  have dot : lex ('.' :: ("length".toList ++ rest)) = .mark .dot :: lex ("length".toList ++ rest) :=
    lex_scan ['.'] ("length".toList ++ rest) fun c first => by
      cases first
      rfl
  exact dot.trans (congrArg (Token.mark .dot :: ·) (lexes_name (by decide +kernel) rest ends))

/-- A mark that goes on with `>` alone. -/
theorem lexes_decrement : Lexes (· != '>') "--" [.mark .decrement] := by
  intro rest ends
  refine lex_scan ['-', '-'] rest fun c first => decide_eq_false ?_
  intro member
  have same : c = '>' := List.mem_singleton.mp member
  have apart := ends c first
  rw [same] at apart
  cases apart

theorem head_name {name : String} (isOne : isName name = true) :
    name.toList.head?.any (· != '>') = true := by
  simp only [isName, Bool.and_eq_true] at isOne
  have begins := isOne.1.1.1
  cases first : name.toList.head? with
  | none =>
    rw [first] at begins
    cases begins
  | some c =>
    rw [first] at begins
    refine bne_iff_ne.mpr ?_
    rintro rfl
    cases begins

/-! ### Expressions -/

section Printing

variable [Numeral α] [Neg α] {literal : List Char → Option α} {reads : α → Bool}

/-- The tokens of an expression, and what they are read as. -/
structure Expr.Printed (literal : List Char → Option α) (expr : Expr α) (read : List Token) :
    Prop where
  lexes : Lexes endsNumber (expr.text .untyped) read
  primary : expr.isPrimary = true →
    Lexes endsWord (expr.text .untyped) read ∧ ReadsPrimary literal read expr
  binary : 1 ≤ expr.strength → ReadsBinary literal expr.strength read expr
  whole : ReadsExpr literal read expr

namespace Expr.Printed

variable {expr : Expr α} {read : List Token} {strength : Nat} {wanted : Bool}

theorem of_primary (lexes : Lexes endsWord (expr.text .untyped) read)
    (isPrimary : ReadsPrimary literal read expr) : Printed literal expr read where
  lexes := lexes.word
  primary _ := ⟨lexes, isPrimary⟩
  binary _ := isPrimary.binary _
  whole := (isPrimary.binary 1).whole (Nat.le_refl 1)

theorem of_binary (lexes : Lexes endsNumber (expr.text .untyped) read)
    (isBinary : ReadsBinary literal expr.strength read expr) (positive : 1 ≤ expr.strength)
    (bare : expr.isPrimary = false) : Printed literal expr read where
  lexes := lexes
  primary suffixed := by
    rw [bare] at suffixed
    cases suffixed
  binary _ := isBinary
  whole := isBinary.whole positive

theorem of_whole (lexes : Lexes endsNumber (expr.text .untyped) read)
    (isWhole : ReadsExpr literal read expr) (weak : expr.strength = 0)
    (bare : expr.isPrimary = false) : Printed literal expr read where
  lexes := lexes
  primary suffixed := by
    rw [bare] at suffixed
    cases suffixed
  binary positive := by
    rw [weak] at positive
    cases positive
  whole := isWhole

/-- An expression in parentheses. -/
theorem bracketed (printed : Printed literal expr read) :
    Lexes endsNumber ("(" ++ expr.text .untyped ++ ")")
      (.mark .openRound :: (read ++ [.mark .closeRound])) :=
  (((Lexes.piece "(" [.mark .openRound] rfl).andThen printed.lexes).before ")" [.mark .closeRound]
    rfl rfl).of_closed

/-- An operand, in parentheses if that is asked for. -/
theorem operand (printed : Printed literal expr read) (positive : 1 ≤ strength)
    (binds : wanted = false → strength ≤ expr.strength) :
    ∃ read' strength', Lexes endsNumber (bracket wanted (expr.text .untyped)) read' ∧
      ReadsBinary literal strength' read' expr ∧ strength ≤ strength' := by
  cases wanted with
  | true => exact ⟨_, strength, printed.bracketed, printed.whole.bracketed.binary strength,
      Nat.le_refl _⟩
  | false =>
    exact ⟨read, expr.strength, printed.lexes, printed.binary (positive.trans (binds rfl)),
      binds rfl⟩

/-- The body of a function, in parentheses if that is asked for. -/
theorem body (printed : Printed literal expr read) (wanted : Bool) :
    ∃ read', Lexes endsNumber (bracket wanted (expr.text .untyped)) read' ∧
      ReadsExpr literal read' expr := by
  cases wanted with
  | true => exact ⟨_, printed.bracketed,
      (printed.whole.bracketed.binary 1).whole (Nat.le_refl 1)⟩
  | false => exact ⟨read, printed.lexes, printed.whole⟩

end Expr.Printed

/-- The name of a function that every script can call, and its parenthesis. -/
theorem Builtin.pieceTokens_name (callee : Builtin) : ∃ object method,
    builtin? object method = some callee ∧ pieceTokens? (callee.name ++ "(") =
      some [.keyword object, .mark .dot, .name method, .mark .openRound] := by
  cases callee with
  | abs => exact ⟨.mathWord, "abs", rfl, rfl⟩
  | floor => exact ⟨.mathWord, "floor", rfl, rfl⟩
  | min => exact ⟨.mathWord, "min", rfl, rfl⟩
  | isNaN => exact ⟨.numberWord, "isNaN", rfl, rfl⟩

variable (denotes : ∀ a, reads a = true → Denotes literal (Numeral.plain a).toList a)

include denotes

mutual

/-- **The text of an expression is read as this expression.** -/
theorem Expr.printed : ∀ expr : Expr α, expr.plain reads = true →
    ∃ read, expr.Printed literal read
  | .literal a, plain => by
    have own := denotes a plain
    have text : Expr.text .untyped (.literal a) = Numeral.plain a := rfl
    generalize digits : (Numeral.plain a).toList = chars at own
    cases own with
    | @plus c part _ digit isParts value =>
      refine ⟨[.number (c :: part)], .of_binary ?_ (readsBinary_number value _) (Nat.succ_pos _) rfl⟩
      intro rest ends
      rw [text, digits]
      exact lex_number_of_digits digit isParts ends
    | @minus c part b digit isParts value =>
      refine ⟨[.mark .minus, .number (c :: part)],
        .of_binary ?_ (readsBinary_minus value _) (Nat.succ_pos _) rfl⟩
      intro rest ends
      rw [text, digits]
      exact (lex_minus digit (part ++ rest)).trans
        (congrArg (Token.mark .minus :: ·) (lex_number_of_digits digit isParts ends))
  | .nan, _ => by
    refine ⟨[.keyword .nanWord], .of_binary ?_ (readsBinary_nan _) (Nat.succ_pos _) rfl⟩
    refine Lexes.word fun rest ends => ?_
    exact lex_word "NaN" rfl rfl fun c first => by simpa [endsWord] using ends c first
  | .variable name, plain =>
    ⟨[.name name], .of_primary (lexes_name plain) (readsPrimary_name name)⟩
  | .incremented name, plain =>
    ⟨[.mark .increment, .name name], .of_binary
      ((Lexes.piece "++" [.mark .increment] rfl).andThen (lexes_name plain).word)
      (readsBinary_incremented name _) (Nat.succ_pos _) rfl⟩
  | .binary operator left right, plain => by
    simp only [Expr.plain, Bool.and_eq_true, Bool.not_eq_true'] at plain
    obtain ⟨⟨⟨notLeft, notRight⟩, isLeft⟩, isRight⟩ := plain
    obtain ⟨_, printedLeft⟩ := Expr.printed left isLeft
    obtain ⟨_, printedRight⟩ := Expr.printed right isRight
    have positive := operator.strength_pos
    obtain ⟨first, _, lexesLeft, readsLeft, atLeast⟩ :=
      printedLeft.operand positive (Expr.strength_of_bracketedLeft notLeft)
    obtain ⟨second, _, lexesRight, readsRight, above⟩ :=
      printedRight.operand (Nat.succ_pos _) (Expr.strength_of_bracketedRight notRight)
    refine ⟨_, .of_binary ?_
      (readsLeft.operation operator.operator?_mark atLeast readsRight above) positive rfl⟩
    have isText : Expr.text .untyped (.binary operator left right) =
        bracket (left.bracketedLeft operator) (left.text .untyped) ++
          (" " ++ operator.sign ++ " ") ++
            bracket (right.bracketedRight operator) (right.text .untyped) := by
      simp only [Expr.text, String.append_assoc]
    have apart : (" " ++ operator.sign ++ " ").toList.head?.any endsNumber = true := by
      cases operator <;> rfl
    have lexes := (lexesLeft.before _ _ operator.pieceTokens_sign apart).andThen lexesRight
    rw [List.append_assoc] at lexes
    rw [isText]
    exact lexes
  | .choose test yes no, plain => by
    simp only [Expr.plain, Bool.and_eq_true, decide_eq_true_eq] at plain
    obtain ⟨⟨⟨binds, isTest⟩, isYes⟩, isNo⟩ := plain
    obtain ⟨first, printedTest⟩ := Expr.printed test isTest
    obtain ⟨second, printedYes⟩ := Expr.printed yes isYes
    obtain ⟨third, printedNo⟩ := Expr.printed no isNo
    refine ⟨_, .of_whole ?_
      ((printedTest.binary binds).choose binds printedYes.whole printedNo.whole) rfl rfl⟩
    have question := printedTest.lexes.before " ? " [.mark .question] rfl rfl
    have colon := (question.andThen printedYes.lexes).before " : " [.mark .colon] rfl rfl
    have lexes := colon.andThen printedNo.lexes
    simp only [List.append_assoc] at lexes
    exact lexes
  | .call callee arguments, plain => by
    obtain ⟨isCallee, areArguments⟩ := Bool.and_eq_true_iff.mp plain
    obtain ⟨read, lexes, items⟩ := Expr.printedAll arguments areArguments .closeRound (by decide)
    refine ⟨_, .of_primary ?_ (items.call callee)⟩
    have opened := (lexes_name isCallee).before "(" [.mark .openRound] rfl rfl
    exact ((opened.andThen lexes).before ")" [.mark .closeRound] rfl rfl).of_closed
  | .builtin callee arguments, plain => by
    obtain ⟨read, lexes, items⟩ := Expr.printedAll arguments plain .closeRound (by decide)
    obtain ⟨object, method, known, isPiece⟩ := callee.pieceTokens_name
    refine ⟨_, .of_primary ?_ (items.builtin known)⟩
    have opened := Lexes.piece _ _ isPiece
    exact ((opened.andThen lexes).before ")" [.mark .closeRound] rfl rfl).of_closed
  | .item entries place, plain => by
    simp only [Expr.plain, Bool.and_eq_true] at plain
    obtain ⟨⟨suffixed, isArray⟩, isPlace⟩ := plain
    obtain ⟨first, printedArray⟩ := Expr.printed entries isArray
    obtain ⟨second, printedPlace⟩ := Expr.printed place isPlace
    obtain ⟨lexes, isPrimary⟩ := printedArray.primary suffixed
    refine ⟨_, .of_primary ?_ (isPrimary.item printedPlace.whole)⟩
    have opened := lexes.before "[" [.mark .openSquare] rfl rfl
    have both := (opened.andThen printedPlace.lexes).before "]" [.mark .closeSquare] rfl rfl
    simp only [List.append_assoc] at both
    exact both.of_closed
  | .size entries, plain => by
    obtain ⟨suffixed, isArray⟩ := Bool.and_eq_true_iff.mp plain
    obtain ⟨first, printedArray⟩ := Expr.printed entries isArray
    obtain ⟨lexes, isPrimary⟩ := printedArray.primary suffixed
    refine ⟨_, .of_primary ?_ isPrimary.size⟩
    exact lexes.append lexes_length rfl
  | .array entries, plain => by
    obtain ⟨read, lexes, items⟩ := Expr.printedAll entries plain .closeSquare (by decide)
    refine ⟨_, .of_primary ?_ items.array⟩
    have opened := Lexes.piece "[" [.mark .openSquare] rfl
    exact ((opened.andThen lexes).before "]" [.mark .closeSquare] rfl rfl).of_closed
  | .function parameters body, plain => by
    obtain ⟨areNames, isBody⟩ := Bool.and_eq_true_iff.mp plain
    obtain ⟨_, printedBody⟩ := Expr.printed body isBody
    obtain ⟨read, lexes, isWhole⟩ := printedBody.body body.bracketedBody
    refine ⟨_, .of_whole ?_ (isWhole.function parameters) rfl rfl⟩
    have arrow := (lexes_signature areNames .number).before " => " [.mark .arrow] rfl rfl
    have both := arrow.andThen lexes
    rw [List.append_assoc] at both
    exact both

/-- The texts of expressions with commas between them are read as these expressions. -/
theorem Expr.printedAll : ∀ exprs : List (Expr α), Expr.allPlain reads exprs = true →
    ∀ closing ∈ closings, ∃ read, Lexes endsNumber (commas (Expr.texts .untyped exprs)) read ∧
      ReadsItems literal closing read exprs
  | [], _, closing, _ => ⟨[], (Lexes.piece "" [] rfl).of_closed, readsItems_nil closing⟩
  | expr :: rest, plain, closing, member => by
    obtain ⟨own, others⟩ := Bool.and_eq_true_iff.mp plain
    obtain ⟨first, printed⟩ := Expr.printed expr own
    obtain ⟨read, lexes, items⟩ := Expr.printedAll rest others closing member
    cases rest with
    | nil => exact ⟨first, printed.lexes, printed.whole.items member⟩
    | cons next rest =>
      refine ⟨_, ?_, items.cons member printed.whole⟩
      have comma := printed.lexes.before ", " [.mark .comma] rfl rfl
      have both := comma.andThen lexes
      rw [List.append_assoc] at both
      rw [Expr.texts, Expr.texts, commas, String.intercalate_cons_cons]
      exact both

end

/-! ### Statements on one line -/

omit denotes

/-- The tokens of a statement on one line, and what they are read as. -/
structure Simple.Printed (literal : List Char → Option α) (statement : Simple α)
    (read : List Token) : Prop where
  lexes : Lexes closed (statement.text .untyped) read
  begins : read.head? ≠ some (.mark .arrow)
  ends : read.getLast? = some (.mark .semicolon)
  isStmt : ReadsStmt literal read (.simple statement.core)
  isSimple : statement.declares = false → ReadsSimple literal read statement.core

namespace Simple.Printed

variable {statement : Simple α} {read : List Token}

theorem of_simple (isSimple : ReadsSimple literal read statement.core)
    (lexes : Lexes closed (statement.text .untyped) read)
    (begins : read.head? ≠ some (.mark .arrow))
    (ends : read.getLast? = some (.mark .semicolon)) : Simple.Printed literal statement read :=
  ⟨lexes, begins, ends, .simple isSimple, fun _ => isSimple⟩

/-- A declaration is no statement that can stand under a test. -/
theorem of_declaration (declares : statement.declares = true)
    (isStmt : ReadsStmt literal read (.simple statement.core))
    (lexes : Lexes closed (statement.text .untyped) read)
    (begins : read.head? ≠ some (.mark .arrow))
    (ends : read.getLast? = some (.mark .semicolon)) : Simple.Printed literal statement read :=
  ⟨lexes, begins, ends, isStmt, fun none => by rw [none] at declares; cases declares⟩

end Simple.Printed

/-- A value before a semicolon. -/
theorem Expr.Printed.ended {expr : Expr α} {head : String} {front read : List Token}
    (printed : expr.Printed literal read) (lexes : Lexes closed head front) :
    Lexes closed (head ++ expr.text .untyped ++ ";") (front ++ read ++ [.mark .semicolon]) :=
  (lexes.andThen printed.lexes).before ";" [.mark .semicolon] rfl rfl

/-- A constant before its value. -/
theorem lexes_constant {name : String} (isOne : isName name = true) :
    Lexes closed ("const " ++ name ++ " = ")
      [.keyword .constWord, .name name, .mark .becomes] :=
  (Lexes.piece "const " [.keyword .constWord] rfl).andThen
    (lexes_name isOne) |>.before " = " [.mark .becomes] rfl rfl

include denotes

/-- **The text of a statement on one line is read as this statement.** -/
theorem Simple.printed {statement : Simple α} (plain : statement.plain reads = true) :
    ∃ read, statement.Printed literal read := by
  cases statement with
  | constant name kind value =>
    obtain ⟨isName, isValue⟩ := Bool.and_eq_true_iff.mp plain
    obtain ⟨read, printed⟩ := value.printed denotes isValue
    have bare : (kind.map (·.text .untyped)).getD "" = "" := by cases kind <;> rfl
    have isText : text .untyped (.constant name kind value) =
        "const " ++ name ++ " = " ++ value.text .untyped ++ ";" := by
      show "const " ++ name ++ (kind.map (·.text .untyped)).getD "" ++ _ ++ _ ++ _ = _
      rw [bare, String.append_empty]
    refine ⟨_, .of_declaration rfl (.constant name printed.whole) ?_ nofun
      (by simp [List.getLast?_cons])⟩
    rw [isText]
    exact printed.ended (lexes_constant isName)
  | constantPair first second value =>
    simp only [Simple.plain, Bool.and_eq_true] at plain
    obtain ⟨⟨isFirst, isSecond⟩, isValue⟩ := plain
    obtain ⟨read, printed⟩ := value.printed denotes isValue
    have names := (Lexes.piece "const [" [.keyword .constWord, .mark .openSquare] rfl).andThen
      (lexes_name isFirst)
      |>.before ", " [.mark .comma] rfl rfl |>.andThen (lexes_name isSecond)
    have head := names.before "] = " [.mark .closeSquare, .mark .becomes] rfl rfl
    exact ⟨_, .of_declaration rfl (.constantPair first second printed.whole) (printed.ended head)
      nofun (by simp [List.getLast?_cons])⟩
  | «variable» name value =>
    obtain ⟨isName, isValue⟩ := Bool.and_eq_true_iff.mp plain
    obtain ⟨read, printed⟩ := value.printed denotes isValue
    have head := (Lexes.piece "let " [.keyword .letWord] rfl).andThen
      (lexes_name isName) |>.before " = " [.mark .becomes] rfl rfl
    exact ⟨_, .of_declaration rfl (.variable name printed.whole) (printed.ended head) nofun
      (by simp [List.getLast?_cons])⟩
  | assign name value =>
    obtain ⟨isName, isValue⟩ := Bool.and_eq_true_iff.mp plain
    obtain ⟨read, printed⟩ := value.printed denotes isValue
    have head := (lexes_name isName).before " = " [.mark .becomes] rfl rfl
    exact ⟨_, .of_simple (.assign name printed.whole) (printed.ended head) nofun
      (by simp [List.getLast?_cons])⟩
  | subtract name value =>
    obtain ⟨isName, isValue⟩ := Bool.and_eq_true_iff.mp plain
    obtain ⟨read, printed⟩ := value.printed denotes isValue
    have head := (lexes_name isName).before " -= " [.mark .lessens] rfl rfl
    exact ⟨_, .of_simple (.subtract name printed.whole) (printed.ended head) nofun
      (by simp [List.getLast?_cons])⟩
  | increment name =>
    have head := (Lexes.piece "++" [.mark .increment] rfl).andThen
      (lexes_name plain) |>.before ";" [.mark .semicolon] rfl rfl
    exact ⟨_, .of_simple (.increment name) head nofun rfl⟩
  | decrement name =>
    have head := (lexes_decrement.append (lexes_name plain) (head_name plain)).before ";"
      [.mark .semicolon] rfl rfl
    exact ⟨_, .of_simple (.decrement name) head nofun rfl⟩
  | push array value =>
    obtain ⟨isName, isValue⟩ := Bool.and_eq_true_iff.mp plain
    obtain ⟨read, printed⟩ := value.printed denotes isValue
    have head := (lexes_name isName).before ".push("
      [.mark .dot, .name "push", .mark .openRound] rfl rfl
    have all := (head.andThen printed.lexes).before ");"
      [.mark .closeRound, .mark .semicolon] rfl rfl
    exact ⟨_, .of_simple (.push array printed.whole) all nofun (by simp [List.getLast?_cons])⟩
  | result value =>
    obtain ⟨read, printed⟩ := value.printed denotes plain
    have head := Lexes.piece "return " [.keyword .returnWord] rfl
    exact ⟨_, .of_simple (.result printed.whole) (printed.ended head) nofun
      (by simp [List.getLast?_cons])⟩
  | leave =>
    have all := Lexes.piece "break;" [.keyword .breakWord, .mark .semicolon] rfl
    exact ⟨_, .of_simple .leave all nofun rfl⟩

/-! ### Lines -/

omit denotes

/-- A closing brace. -/
theorem lexes_closeCurly : Lexes closed "\x7d" [.mark .closeCurly] :=
  Lexes.piece _ _ rfl

/-- A name ends before parameters. -/
theorem head_signature (names : List String) (returns : Kind) :
    (signature .untyped names returns).toList.head?.any endsWord = true := by
  unfold signature
  rw [String.append_assoc, String.append_assoc, String.toList_append]
  rfl

/-- The tokens of lines, each of which may stand alone. -/
def Lines (lines : List String) (read : List Token) : Prop :=
  lines.flatMap (fun line => lineTokens line.toList) = read

/-- A line may stand alone when its last token and its first one say so. -/
theorem standsAlone_of (front back : List Token) {last : Token}
    (ends : back.getLast? = some last) (apart : last ≠ .keyword .returnWord)
    (begins : (front ++ back).head? ≠ some (.mark .arrow)) :
    standsAlone (front ++ back) = true := by
  have both : (front ++ back).getLast? = some last := by
    rw [List.getLast?_append, ends, Option.some_or]
  rw [standsAlone, both, Bool.and_eq_true, bne_iff_ne, bne_iff_ne]
  exact ⟨fun same => apart (Option.some.inj same), begins⟩

namespace Lines

variable {lines lines' : List String} {read read' : List Token}

theorem nil : Lines [] [] := rfl

theorem append (isRead : Lines lines read) (isRead' : Lines lines' read') :
    Lines (lines ++ lines') (read ++ read') := by
  unfold Lines at isRead isRead' ⊢
  rw [List.flatMap_append, isRead, isRead']

theorem of_eq (isRead : Lines lines read) (same : read = read') : Lines lines read' := same ▸ isRead

theorem one {line : String} {stops : Char → Bool} (lexes : Lexes stops line read)
    (alone : standsAlone read = true) : Lines [line] read := by
  unfold Lines
  rw [List.flatMap_singleton, lineTokens, lexes.alone, if_pos alone]

/-- Blanks before a line are not read. -/
theorem lineTokens_blanks (line : String) :
    lineTokens ("  " ++ line).toList = lineTokens line.toList := by
  have same : lex ("  " ++ line).toList = lex line.toList := by
    rw [String.toList_append]
    exact (lex_piece "  " rfl line.toList).trans (List.nil_append _)
  rw [lineTokens, lineTokens, same]

theorem indented (isRead : Lines lines read) : Lines (indent lines) read := by
  unfold Lines indent at *
  rw [List.flatMap_map, ← isRead]
  exact List.flatMap_congr fun line _ => lineTokens_blanks line

/-- The lines of a body are indented where they are not empty. -/
theorem bodyLines (isRead : Lines lines read) : Lines (lines.map bodyLine) read := by
  unfold Lines at *
  rw [List.flatMap_map, ← isRead]
  refine List.flatMap_congr fun line _ => ?_
  unfold bodyLine
  split
  · rfl
  · exact lineTokens_blanks line

/-- Indented lines between two others. -/
theorem headed {head foot : String} {first body last : List Token} (isHead : Lexes closed head first)
    (alone : standsAlone first = true) (areLines : Lines lines body)
    (isFoot : Lexes closed foot last) (alone' : standsAlone last = true) :
    Lines ([head] ++ indent lines ++ [foot]) (first ++ (body ++ last)) := by
  rw [← List.append_assoc]
  exact ((one isHead alone).append areLines.indented).append (one isFoot alone')

/-- Indented lines in braces. -/
theorem braced {head : String} {front back body : List Token}
    (isHead : Lexes closed head (front ++ back)) (opens : back.getLast? = some (.mark .openCurly))
    (begins : (front ++ back).head? ≠ some (.mark .arrow)) (areLines : Lines lines body) :
    Lines ([head] ++ indent lines ++ ["\x7d"]) (front ++ back ++ (body ++ [.mark .closeCurly])) :=
  headed isHead (standsAlone_of front back opens (by decide) begins) areLines lexes_closeCurly rfl

end Lines

/-- A statement behind other tokens on its line. -/
theorem Simple.Printed.line {statement : Simple α} {head : String} {front read : List Token}
    (printed : statement.Printed literal read) (lexes : Lexes closed head front)
    (begins : (front ++ read).head? ≠ some (.mark .arrow)) :
    Lines [head ++ statement.text .untyped] (front ++ read) :=
  .one (lexes.andThen printed.lexes) (standsAlone_of front read printed.ends (by decide) begins)

/-- A test between a word with a parenthesis and what follows the test. -/
theorem Expr.Printed.test {expr : Expr α} {read : List Token} (printed : expr.Printed literal read)
    (word text : String) (front back : List Token) (isWord : pieceTokens? word = some front)
    (isText : pieceTokens? text = some back) (closes : text.toList.head?.any endsNumber = true) :
    Lexes closed (word ++ expr.text .untyped ++ text) (front ++ read ++ back) :=
  ((Lexes.piece word front isWord).andThen printed.lexes).before text back isText closes

/-- The tokens of the head of a loop that counts. -/
def countTokens (counter : String) (bound : List Token) : List Token :=
  .keyword .forWord :: .mark .openRound :: .keyword .letWord :: .name counter :: .mark .becomes ::
    .number ['0'] :: .mark .semicolon :: .name counter :: .mark .less ::
      (bound ++ [.mark .semicolon, .mark .increment, .name counter, .mark .closeRound])

theorem Expr.Printed.countHead {bound : Expr α} {counter : String} {read : List Token}
    (printed : bound.Printed literal read) (isCounter : isName counter = true) :
    Lexes closed (Script.countHead .untyped counter bound) (countTokens counter read) := by
  have name := lexes_name isCounter
  have declared := (Lexes.piece "for (let " [.keyword .forWord, .mark .openRound, .keyword .letWord]
    rfl).andThen name
  have start := declared.before " = 0; " [.mark .becomes, .number ['0'], .mark .semicolon] rfl rfl
  have tested := ((start.andThen name).before " < " [.mark .less] rfl rfl).andThen printed.lexes
  have counted := (tested.before "; ++" [.mark .semicolon, .mark .increment] rfl rfl).andThen name
  have whole := counted.before ")" [.mark .closeRound] rfl rfl
  simp only [List.append_assoc, List.cons_append, List.nil_append] at whole
  exact whole

include denotes

/-- **The rows of a table are read as the entries of an array**, each with a comma behind it. -/
theorem printed_rows {rows : List (Expr α)} (plain : Expr.allPlain reads rows = true) :
    ∃ read, Lines (rows.map fun row => row.text .untyped ++ ",") read ∧
      ReadsItems literal .closeSquare read rows := by
  induction rows with
  | nil => exact ⟨[], .nil, readsItems_nil _⟩
  | cons row rest ih =>
    obtain ⟨own, others⟩ := Bool.and_eq_true_iff.mp plain
    obtain ⟨first, printed⟩ := row.printed denotes own
    obtain ⟨read, lines, items⟩ := ih others
    have line := Lines.one (printed.lexes.before "," [.mark .comma] rfl rfl)
      (standsAlone_of first [.mark .comma] rfl (by decide) (printed.whole.head_ne rfl _))
    exact ⟨_, (line.append lines).of_eq (by simp), items.cons (by decide) printed.whole⟩

/-! ### Statements -/

/-- The tokens of the lines of a statement, and the statements that they are read as. -/
structure Stmt.Printed (literal : List Char → Option α) (lines : List String)
    (body : List (Stmt α)) (read : List Token) : Prop where
  areLines : Lines lines read
  areRead : ReadsAll literal read body

mutual

/-- **The lines of a statement are read as its core.** -/
theorem Stmt.printed : ∀ statement : Stmt α, statement.plain reads = true →
    ∃ read, Stmt.Printed literal (statement.lines .untyped) statement.core read
  | .simple statement, plain => by
    obtain ⟨read, printed⟩ := Simple.printed denotes plain
    have alone := standsAlone_of [] read printed.ends (by decide) printed.begins
    exact ⟨read, .one printed.lexes alone, printed.isStmt.all⟩
  | .blank, _ => ⟨[], .one (Lexes.piece "" [] rfl) rfl, .nil⟩
  | .longFunction name parameters body, plain => by
    simp only [Stmt.plain, Bool.and_eq_true] at plain
    obtain ⟨⟨isName, areNames⟩, isBody⟩ := plain
    obtain ⟨read, printed⟩ := body.printed denotes isBody
    have head := ((lexes_constant isName).andThen (lexes_signature areNames .number)).before " =>"
      [.mark .arrow] rfl rfl
    have value := printed.ended (Lexes.piece "  " [] rfl)
    have lines := (Lines.one head (standsAlone_of _ [.mark .arrow] rfl (by decide) nofun)).append
      (Lines.one value (standsAlone_of _ [.mark .semicolon] rfl (by decide)
        (printed.whole.head_ne rfl _)))
    exact ⟨_, lines.of_eq (by simp),
      (ReadsStmt.constant name (printed.whole.function parameters)).all⟩
  | .localFunction name parameters body, plain => by
    simp only [Stmt.plain, Bool.and_eq_true] at plain
    obtain ⟨⟨isName, areNames⟩, isBody⟩ := plain
    obtain ⟨read, printed⟩ := Stmt.printedAll body isBody
    have head := ((lexes_constant isName).andThen (lexes_signature areNames .number)).before
      " => \x7b" [.mark .arrow, .mark .openCurly] rfl rfl
    have lines := Lines.headed head
      (standsAlone_of _ [.mark .arrow, .mark .openCurly] rfl (by decide) nofun) printed.areLines
      (Lexes.piece "\x7d;" [.mark .closeCurly, .mark .semicolon] rfl) rfl
    exact ⟨_, lines.of_eq (by simp),
      (ReadsStmt.localFunction name parameters printed.areRead).all⟩
  | .function name parameters returns body, plain => by
    simp only [Stmt.plain, Bool.and_eq_true] at plain
    obtain ⟨⟨isName, areNames⟩, isBody⟩ := plain
    obtain ⟨read, printed⟩ := Stmt.printedAll body isBody
    have named := (Lexes.piece "function " [.keyword .functionWord] rfl).andThen (lexes_name isName)
    have head := (named.append (lexes_signature areNames returns) (head_signature _ _)).before
      " \x7b" [.mark .openCurly] rfl rfl
    have lines := Lines.braced head rfl nofun printed.areLines
    exact ⟨_, lines.of_eq (by simp), (ReadsStmt.function name parameters printed.areRead).all⟩
  | .guarded test statement, plain => by
    simp only [Stmt.plain, Bool.and_eq_true, Bool.not_eq_true'] at plain
    obtain ⟨⟨isTest, isStatement⟩, bare⟩ := plain
    obtain ⟨first, printedTest⟩ := test.printed denotes isTest
    obtain ⟨second, printed⟩ := Simple.printed denotes isStatement
    have head := printedTest.test "if (" ") " [.keyword .ifWord, .mark .openRound]
      [.mark .closeRound] rfl rfl rfl
    have lines := printed.line head nofun
    exact ⟨_, lines.of_eq (by simp),
      (ReadsStmt.guarded printedTest.whole (printed.isSimple bare)).all⟩
  | .either test yes no, plain => by
    simp only [Stmt.plain, Bool.and_eq_true, Bool.not_eq_true'] at plain
    obtain ⟨⟨⟨⟨isTest, isYes⟩, bareYes⟩, isNo⟩, bareNo⟩ := plain
    obtain ⟨first, printedTest⟩ := test.printed denotes isTest
    obtain ⟨second, printedYes⟩ := Simple.printed denotes isYes
    obtain ⟨third, printedNo⟩ := Simple.printed denotes isNo
    have head := printedTest.test "if (" ") " [.keyword .ifWord, .mark .openRound]
      [.mark .closeRound] rfl rfl rfl
    have lines := (printedYes.line head nofun).append
      (printedNo.line (Lexes.piece "else " [.keyword .elseWord] rfl) nofun)
    exact ⟨_, lines.of_eq (by simp), (ReadsStmt.either printedTest.whole
      (printedYes.isSimple bareYes) (printedNo.isSimple bareNo)).all⟩
  | .block test body, plain => by
    obtain ⟨isTest, isBody⟩ := Bool.and_eq_true_iff.mp plain
    obtain ⟨first, printedTest⟩ := test.printed denotes isTest
    obtain ⟨read, printed⟩ := Stmt.printedAll body isBody
    have head := printedTest.test "if (" ") \x7b" [.keyword .ifWord, .mark .openRound]
      [.mark .closeRound, .mark .openCurly] rfl rfl rfl
    have lines := Lines.braced head rfl nofun printed.areLines
    exact ⟨_, lines.of_eq (by simp), (ReadsStmt.block printedTest.whole printed.areRead).all⟩
  | .countOne counter bound statement, plain => by
    simp only [Stmt.plain, Bool.and_eq_true, decide_eq_true_eq, Bool.not_eq_true'] at plain
    obtain ⟨⟨⟨⟨isCounter, binds⟩, isBound⟩, isStatement⟩, bare⟩ := plain
    obtain ⟨first, printedBound⟩ := bound.printed denotes isBound
    obtain ⟨second, printed⟩ := Simple.printed denotes isStatement
    have lines := printed.line ((printedBound.countHead isCounter).before " " [] rfl rfl) nofun
    exact ⟨_, lines.of_eq (by simp [countTokens]), (ReadsStmt.counting counter
      (printedBound.binary (by omega)) binds ((printed.isSimple bare).under _ _)).all⟩
  | .count counter bound body, plain => by
    simp only [Stmt.plain, Bool.and_eq_true, decide_eq_true_eq] at plain
    obtain ⟨⟨⟨isCounter, binds⟩, isBound⟩, isBody⟩ := plain
    obtain ⟨first, printedBound⟩ := bound.printed denotes isBound
    obtain ⟨read, printed⟩ := Stmt.printedAll body isBody
    have head := (printedBound.countHead isCounter).before " \x7b" [.mark .openCurly] rfl rfl
    have lines := Lines.braced head rfl nofun printed.areLines
    exact ⟨_, lines.of_eq (by simp [countTokens]), (ReadsStmt.counting counter
      (printedBound.binary (by omega)) binds (printed.areRead.under _ _)).all⟩
  | .loopOne test statement, plain => by
    simp only [Stmt.plain, Bool.and_eq_true, Bool.not_eq_true'] at plain
    obtain ⟨⟨isTest, isStatement⟩, bare⟩ := plain
    obtain ⟨first, printedTest⟩ := test.printed denotes isTest
    obtain ⟨second, printed⟩ := Simple.printed denotes isStatement
    have head := printedTest.test "while (" ") " [.keyword .whileWord, .mark .openRound]
      [.mark .closeRound] rfl rfl rfl
    have lines := printed.line head nofun
    exact ⟨_, lines.of_eq (by simp), (ReadsStmt.while_ printedTest.whole
      ((printed.isSimple bare).under _ _)).all⟩
  | .loop test body, plain => by
    obtain ⟨isTest, isBody⟩ := Bool.and_eq_true_iff.mp plain
    obtain ⟨first, printedTest⟩ := test.printed denotes isTest
    obtain ⟨read, printed⟩ := Stmt.printedAll body isBody
    have head := printedTest.test "while (" ") \x7b" [.keyword .whileWord, .mark .openRound]
      [.mark .closeRound, .mark .openCurly] rfl rfl rfl
    have lines := Lines.braced head rfl nofun printed.areLines
    exact ⟨_, lines.of_eq (by simp),
      (ReadsStmt.while_ printedTest.whole (printed.areRead.under _ _)).all⟩
  | .loopAfter body test, plain => by
    obtain ⟨isTest, isBody⟩ := Bool.and_eq_true_iff.mp plain
    obtain ⟨first, printedTest⟩ := test.printed denotes isTest
    obtain ⟨read, printed⟩ := Stmt.printedAll body isBody
    have head := Lexes.piece "do \x7b" [.keyword .doWord, .mark .openCurly] rfl
    have foot := printedTest.test "\x7d while (" ");"
      [.mark .closeCurly, .keyword .whileWord, .mark .openRound]
      [.mark .closeRound, .mark .semicolon] rfl rfl rfl
    have lines := Lines.headed head rfl printed.areLines foot
      (standsAlone_of _ [.mark .closeRound, .mark .semicolon] rfl (by decide) nofun)
    exact ⟨_, lines.of_eq (by simp), (ReadsStmt.loopAfter printed.areRead printedTest.whole).all⟩
  | .table name kind rows, plain => by
    obtain ⟨isName, areRows⟩ := Bool.and_eq_true_iff.mp plain
    obtain ⟨read, areLines, items⟩ := printed_rows denotes areRows
    have bare : kind.text .untyped = "" := rfl
    have opened := (lexes_name isName).before " = [" [.mark .becomes, .mark .openSquare] rfl rfl
    have head := (Lexes.piece "const " [.keyword .constWord] rfl).andThen opened
    have lines := Lines.headed head rfl areLines
      (Lexes.piece "];" [.mark .closeSquare, .mark .semicolon] rfl) rfl
    have isArray := (items.array.binary 1).whole (Nat.le_refl 1)
    refine ⟨_, ?_, (ReadsStmt.constant name isArray).all⟩
    have isText : Stmt.lines .untyped (.table name kind rows) = ["const " ++ (name ++ " = [")] ++
        indent (rows.map fun row => row.text .untyped ++ ",") ++ ["];"] := by
      rw [Stmt.lines, bare, String.append_empty, String.append_assoc]
    rw [isText]
    exact lines.of_eq (by simp)

/-- The same of several statements. -/
theorem Stmt.printedAll : ∀ body : List (Stmt α), Stmt.allPlain reads body = true →
    ∃ read, Stmt.Printed literal (Stmt.allLines .untyped body) (Script.core body) read
  | [], _ => ⟨[], Lines.nil, .nil⟩
  | statement :: rest, plain => by
    obtain ⟨own, others⟩ := Bool.and_eq_true_iff.mp plain
    obtain ⟨first, printed⟩ := Stmt.printed statement own
    obtain ⟨second, printedRest⟩ := Stmt.printedAll rest others
    exact ⟨first ++ second, printed.areLines.append printedRest.areLines,
      printed.areRead.append printedRest.areRead⟩

end

/-! ### Functions -/

omit denotes in
/-- The lines of a text without line feeds in them are its lines. -/
theorem tokens_unlines {lines : List String} {read : List Token} (areLines : Lines lines read)
    (noFeed : ∀ line ∈ lines, '\n' ∉ line.toList) : tokens (unlines lines) = read := by
  unfold Lines at areLines
  rw [tokens, splitOn_unlines noFeed, List.flatMap_append, List.flatMap_map, areLines]
  exact List.append_nil _

/-- **The text of a function is read as the core of its script.** -/
theorem readFunction_wrapLines {body : List (Stmt α)} (plain : Stmt.allPlain reads body = true)
    (feedless : ∀ line ∈ Stmt.allLines .untyped body, '\n' ∉ line.toList) :
    readFunction literal (wrapLines .untyped (Stmt.allLines .untyped body)) =
      some ⟨"interpolate", ["t"], core body⟩ := by
  obtain ⟨read, printed⟩ := Stmt.printedAll denotes body plain
  have named := (Lexes.piece "function " [.keyword .functionWord] rfl).andThen
    (lexes_name (show isName functionName = true by decide +kernel))
  have parameters := lexes_signature (show ["t"].all isName = true by decide +kernel) .number
  have head : Lexes closed (header .untyped) _ :=
    (named.append parameters (head_signature _ _)).before " \x7b" [.mark .openCurly] rfl rfl
  have lines := ((Lines.one head rfl).append printed.areLines.bodyLines).append
    (Lines.one lexes_closeCurly rfl)
  exact readFunction_of_tokens
    ((tokens_unlines lines (not_mem_feed_wrapped .untyped feedless)).trans (by simp; rfl))
    printed.areRead

end Printing

end Easing.Script
