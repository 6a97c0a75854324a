/-
**Tokens read as scripts.**

A reader for the part of the language in which scripts are written. It knows the words, the marks
and the strengths of the operators of the language; nothing here is shared with what writes scripts.

An operation takes on its right what binds more strongly, and on its left what binds as strongly;
parentheses make any expression an operand. A condition and a function reach as far as they can.
Statements end with a semicolon; a declaration stands in a block, not behind a test or a loop.

* `readExpr`, `readBinary`, `readOperations`, `readOperand`, `readPrimary`, `readSuffixes`,
  `readItems`: expressions, from the weakest to the strongest.
* `readSimple`, `readCount`, `readStmt`, `readUnder`, `readBlock`: statements.
* `readFunction`: a text as a function.
-/
import Easing.Proofs.Script.Tokens
import Easing.Script.Tree

namespace Easing.Script

variable {α : Type}

/-- What is read at the front of tokens, and the tokens behind it. -/
abbrev Front (β : Type) := Option (β × List Token)

/-! ### Operators and functions -/

/-- The operator that a mark stands for. -/
def Mark.operator? : Mark → Option Operator
  | .or => some .or
  | .and => some .and
  | .identical => some .equal
  | .distinct => some .unequal
  | .less => some .less
  | .atMost => some .atMost
  | .greater => some .greater
  | .atLeast => some .atLeast
  | .shiftRight => some .shiftRight
  | .plus => some .plus
  | .minus => some .minus
  | .times => some .times
  | .divide => some .divide
  | _ => none

/-- How strongly an operator binds: alternatives least, then conjunctions, equality, order, shifts,
sums, and products most. Three levels in between belong to operators on bits. -/
def Operator.strength : Operator → Nat
  | .or => 1
  | .and => 2
  | .equal | .unequal => 6
  | .less | .atMost | .greater | .atLeast => 7
  | .shiftRight => 8
  | .plus | .minus => 9
  | .times | .divide => 10

/-- The operator at the front. -/
def nextOperator? : List Token → Front Operator
  | .mark mark :: rest => mark.operator?.map (·, rest)
  | _ => none

/-- The function that a name of a global object stands for. -/
def builtin? : Keyword → String → Option Builtin
  | .mathWord, "abs" => some .abs
  | .mathWord, "floor" => some .floor
  | .mathWord, "min" => some .min
  | .numberWord, "isNaN" => some .isNaN
  | _, _ => none

/-! ### Parameters -/

/-- Names with commas between them, up to a closing parenthesis. -/
def readNames : List Token → Front (List String)
  | .name name :: .mark .comma :: rest =>
    (readNames rest).map fun (names, rest) => (name :: names, rest)
  | .name name :: .mark .closeRound :: rest => some ([name], rest)
  | _ => none

/-- Parameters in parentheses. -/
def readParameters : List Token → Front (List String)
  | .mark .openRound :: .mark .closeRound :: rest => some ([], rest)
  | .mark .openRound :: rest => readNames rest
  | _ => none

/-- Parameters and an arrow. -/
def readArrow (tokens : List Token) : Front (List String) :=
  match readParameters tokens with
  | some (parameters, .mark .arrow :: rest) => some (parameters, rest)
  | _ => none

/-! ### Expressions -/

section Expressions

variable [Neg α] (literal : List Char → Option α)

mutual

/-- An expression: an operation, a condition or a function. -/
def readExpr : Nat → List Token → Front (Expr α)
  | 0, _ => none
  | fuel + 1, tokens =>
    match readBinary fuel 1 tokens with
    | some (test, .mark .question :: rest) =>
      match readExpr fuel rest with
      | some (yes, .mark .colon :: rest) =>
        (readExpr fuel rest).map fun (no, rest) => (.choose test yes no, rest)
      | _ => none
    | none | some (_, .mark .arrow :: _) =>
      match readArrow tokens with
      | some (parameters, rest) =>
        (readExpr fuel rest).map fun (body, rest) => (.function parameters body, rest)
      | none => none
    | other => other

/-- An operand, or an operation that binds at least so strongly. -/
def readBinary : Nat → Nat → List Token → Front (Expr α)
  | 0, _, _ => none
  | fuel + 1, least, tokens =>
    match readOperand fuel tokens with
    | some (left, rest) => readOperations fuel least left rest
    | none => none

/-- The operations that go on from a left operand and bind at least so strongly. -/
def readOperations : Nat → Nat → Expr α → List Token → Front (Expr α)
  | 0, _, _, _ => none
  | fuel + 1, least, left, tokens =>
    match nextOperator? tokens with
    | some (operator, rest) =>
      if least ≤ operator.strength then
        match readBinary fuel (operator.strength + 1) rest with
        | some (right, rest) => readOperations fuel least (.binary operator left right) rest
        | none => none
      else some (left, tokens)
    | none => some (left, tokens)

/-- An operand: a number with or without a minus, a count, or a primary with its suffixes. -/
def readOperand : Nat → List Token → Front (Expr α)
  | 0, _ => none
  | fuel + 1, tokens =>
    match tokens with
    | .number text :: rest => (literal text).map fun a => (.literal a, rest)
    | .mark .minus :: .number text :: rest => (literal text).map fun a => (.literal (-a), rest)
    | .mark .increment :: .name name :: rest => some (.incremented name, rest)
    | tokens =>
      match readPrimary fuel tokens with
      | some (expr, rest) => readSuffixes fuel expr rest
      | none => none

/-- A name, a call, an array or an expression in parentheses. -/
def readPrimary : Nat → List Token → Front (Expr α)
  | 0, _ => none
  | fuel + 1, tokens =>
    match tokens with
    | .name callee :: .mark .openRound :: rest =>
      (readItems fuel .closeRound rest).map fun (arguments, rest) =>
        (.call callee arguments, rest)
    | .name name :: rest => some (.variable name, rest)
    | .keyword object :: .mark .dot :: .name method :: .mark .openRound :: rest =>
      match builtin? object method with
      | some callee =>
        (readItems fuel .closeRound rest).map fun (arguments, rest) =>
          (.builtin callee arguments, rest)
      | none => none
    | .keyword .nanWord :: rest => some (.nan, rest)
    | .mark .openRound :: rest =>
      match readExpr fuel rest with
      | some (expr, .mark .closeRound :: rest) => some (expr, rest)
      | _ => none
    | .mark .openSquare :: rest =>
      (readItems fuel .closeSquare rest).map fun (entries, rest) => (.array entries, rest)
    | _ => none

/-- The entries and the lengths that are taken of an expression. -/
def readSuffixes : Nat → Expr α → List Token → Front (Expr α)
  | 0, _, _ => none
  | fuel + 1, expr, tokens =>
    match tokens with
    | .mark .openSquare :: rest =>
      match readExpr fuel rest with
      | some (place, .mark .closeSquare :: rest) => readSuffixes fuel (.item expr place) rest
      | _ => none
    | .mark .dot :: .name property :: rest =>
      if property = "length" then readSuffixes fuel (.size expr) rest else none
    | tokens => some (expr, tokens)

/-- Expressions with commas between them, up to a closing mark. The last one may have a comma
too. -/
def readItems : Nat → Mark → List Token → Front (List (Expr α))
  | 0, _, _ => none
  | fuel + 1, closing, tokens =>
    if tokens.head? = some (.mark closing) then some ([], tokens.tail)
    else
      match readExpr fuel tokens with
      | some (expr, .mark mark :: rest) =>
        if mark = .comma then
          (readItems fuel closing rest).map fun (exprs, rest) => (expr :: exprs, rest)
        else if mark = closing then some ([expr], rest)
        else none
      | _ => none

end

/-! ### Statements -/

/-- What was read, and a semicolon behind it. -/
def withSemicolon {β γ : Type} (make : β → γ) : Front β → Front γ
  | some (read, .mark .semicolon :: rest) => some (make read, rest)
  | _ => none

/-- A statement on one line that declares nothing. -/
def readSimple (fuel : Nat) : List Token → Front (Simple α)
  | .keyword .returnWord :: rest => withSemicolon .result (readExpr literal fuel rest)
  | .keyword .breakWord :: .mark .semicolon :: rest => some (.leave, rest)
  | .mark .increment :: .name name :: .mark .semicolon :: rest => some (.increment name, rest)
  | .mark .decrement :: .name name :: .mark .semicolon :: rest => some (.decrement name, rest)
  | .name name :: .mark .becomes :: rest =>
    withSemicolon (.assign name) (readExpr literal fuel rest)
  | .name name :: .mark .lessens :: rest =>
    withSemicolon (.subtract name) (readExpr literal fuel rest)
  | .name array :: .mark .dot :: .name method :: .mark .openRound :: rest =>
    match readExpr literal fuel rest with
    | some (value, .mark .closeRound :: rest) =>
      if method = "push" then withSemicolon (.push array) (some (value, rest)) else none
    | _ => none
  | _ => none

/-- The head of a loop that counts from zero, after its opening parenthesis: the counter, and the
bound, which binds more strongly than the order. -/
def readCount (fuel : Nat) : List Token → Front (String × Expr α)
  | .keyword .letWord :: .name counter :: .mark .becomes :: .number start :: .mark .semicolon ::
      .name tested :: .mark .less :: rest =>
    match readBinary literal fuel (Operator.less.strength + 1) rest with
    | some (bound, .mark .semicolon :: .mark .increment :: .name counted ::
        .mark .closeRound :: rest) =>
      if start = ['0'] ∧ tested = counter ∧ counted = counter then some ((counter, bound), rest)
      else none
    | _ => none
  | _ => none

mutual

/-- A statement. -/
def readStmt : Nat → List Token → Front (Stmt α)
  | 0, _ => none
  | fuel + 1, tokens =>
    match tokens with
    | .keyword .constWord :: .name name :: .mark .becomes :: rest =>
      match withSemicolon (.constant name none) (readExpr literal fuel rest) with
      | some (statement, rest) => some (.simple statement, rest)
      | none =>
        match readArrow rest with
        | some (parameters, .mark .openCurly :: rest) =>
          withSemicolon (.localFunction name parameters) (readBlock fuel rest)
        | _ => none
    | .keyword .constWord :: .mark .openSquare :: .name first :: .mark .comma :: .name second ::
        .mark .closeSquare :: .mark .becomes :: rest =>
      withSemicolon (.simple ∘ .constantPair first second) (readExpr literal fuel rest)
    | .keyword .letWord :: .name name :: .mark .becomes :: rest =>
      withSemicolon (.simple ∘ .variable name) (readExpr literal fuel rest)
    | .keyword .functionWord :: .name name :: rest =>
      match readParameters rest with
      | some (parameters, .mark .openCurly :: rest) =>
        (readBlock fuel rest).map fun (body, rest) =>
          (.function name parameters .number body, rest)
      | _ => none
    | .keyword .ifWord :: .mark .openRound :: rest =>
      match readExpr literal fuel rest with
      | some (test, .mark .closeRound :: rest) =>
        match readUnder fuel (.block test) (.guarded test) rest with
        | some (.guarded test yes, .keyword .elseWord :: rest) =>
          (readSimple literal fuel rest).map fun (no, rest) => (.either test yes no, rest)
        | other => other
      | _ => none
    | .keyword .whileWord :: .mark .openRound :: rest =>
      match readExpr literal fuel rest with
      | some (test, .mark .closeRound :: rest) =>
        readUnder fuel (.loop test) (.loopOne test) rest
      | _ => none
    | .keyword .doWord :: .mark .openCurly :: rest =>
      match readBlock fuel rest with
      | some (body, .keyword .whileWord :: .mark .openRound :: rest) =>
        match readExpr literal fuel rest with
        | some (test, .mark .closeRound :: rest) =>
          withSemicolon (.loopAfter body) (some (test, rest))
        | _ => none
      | _ => none
    | .keyword .forWord :: .mark .openRound :: rest =>
      match readCount literal fuel rest with
      | some ((counter, bound), rest) =>
        readUnder fuel (.count counter bound) (.countOne counter bound) rest
      | none => none
    | tokens => (readSimple literal fuel tokens).map fun (simple, rest) => (.simple simple, rest)

/-- What is under a test or in a loop: a block, or a statement that declares nothing. -/
def readUnder : Nat → (List (Stmt α) → Stmt α) → (Simple α → Stmt α) → List Token → Front (Stmt α)
  | 0, _, _, _ => none
  | fuel + 1, block, one, tokens =>
    if tokens.head? = some (.mark .openCurly) then
      (readBlock fuel tokens.tail).map fun (body, rest) => (block body, rest)
    else (readSimple literal fuel tokens).map fun (simple, rest) => (one simple, rest)

/-- Statements up to a closing brace. -/
def readBlock : Nat → List Token → Front (List (Stmt α))
  | 0, _ => none
  | fuel + 1, tokens =>
    if tokens.head? = some (.mark .closeCurly) then some ([], tokens.tail)
    else
      match readStmt fuel tokens with
      | some (statement, rest) =>
        (readBlock fuel rest).map fun (body, rest) => (statement :: body, rest)
      | none => none

end

/-- A function that was read. -/
structure FunctionText (α : Type) where
  name : String
  parameters : List String
  body : List (Stmt α)

/-- A text as a function, after which nothing follows. Every call of a reader is for fewer tokens,
or one of six for the same ones, so that there is enough fuel for any text. -/
def readFunction (text : String) : Option (FunctionText α) :=
  match tokens text with
  | .keyword .functionWord :: .name name :: rest =>
    match readParameters rest with
    | some (parameters, .mark .openCurly :: rest) =>
      match readBlock literal (8 * rest.length + 8) rest with
      | some (body, []) => some ⟨name, parameters, body⟩
      | _ => none
    | _ => none
  | _ => none

end Expressions

end Easing.Script
