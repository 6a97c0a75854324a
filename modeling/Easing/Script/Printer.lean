/-
**The text of scripts.**

An operand is put in parentheses when it binds less tightly than the operation around it, and where
a reader might doubt: in a product of quotients, a quotient of products, and a shift. The two
dialects write the same text apart from annotations.

* `Expr.text`: an expression.
* `Stmt.lines`: a statement, line by line, what is inside it indented.
* `text`: lines with their ends.
-/
import Easing.Script.Tree
import Easing.Scalar

namespace Easing.Script

/-- The words of an annotation. -/
def Kind.words : Kind → String
  | .number => "number"
  | .numbers => "number[]"
  | .pairs => "[number, number][]"
  | .rows => "number[][]"
  | .numberFunction => "(x: number) => number"

/-- The given words as an annotation; nothing in the dialect without annotations. -/
def Dialect.annotate (dialect : Dialect) (words : String) : String :=
  match dialect with
  | .typed => ": " ++ words
  | .untyped => ""

/-- An annotation, in the dialect that has them. -/
def Kind.text (kind : Kind) (dialect : Dialect) : String :=
  dialect.annotate kind.words

namespace Operator

/-- The sign of an operator. -/
def sign : Operator → String
  | .or => "||"
  | .and => "&&"
  | .equal => "==="
  | .unequal => "!=="
  | .less => "<"
  | .atMost => "<="
  | .greater => ">"
  | .atLeast => ">="
  | .shiftRight => ">>"
  | .plus => "+"
  | .minus => "-"
  | .times => "*"
  | .divide => "/"

/-- How tightly an operator binds. -/
def level : Operator → Nat
  | .or => 1
  | .and => 2
  | .equal | .unequal => 3
  | .less | .atMost | .greater | .atLeast => 4
  | .shiftRight => 5
  | .plus | .minus => 6
  | .times | .divide => 7

/-- A left operand made by the operator `inner` is put in parentheses. -/
def bracketsLeft (outer inner : Operator) : Bool :=
  inner.level < outer.level || outer == .shiftRight ||
    (outer.level == 7 && inner.level == 7 && outer != inner)

/-- A right operand made by the operator `inner` is put in parentheses. -/
def bracketsRight (outer inner : Operator) : Bool :=
  inner.level ≤ outer.level || outer == .shiftRight

end Operator

/-- The name of a function that every script can call. -/
def Builtin.name : Builtin → String
  | .abs => "Math.abs"
  | .floor => "Math.floor"
  | .min => "Math.min"
  | .isNaN => "Number.isNaN"

/-- A text in parentheses when asked for. -/
def bracket (wanted : Bool) (text : String) : String :=
  if wanted then "(" ++ text ++ ")" else text

/-- Texts with a comma between them. -/
def commas (texts : List String) : String := String.intercalate ", " texts

/-- The parameters of a function and what it returns. -/
def signature (dialect : Dialect) (parameters : List String) (returns : Kind) : String :=
  "(" ++ commas (parameters.map (· ++ Kind.number.text dialect)) ++ ")" ++
    returns.text dialect

variable {α : Type} [Numeral α]

namespace Expr

/-- The expression is put in parentheses on the left of an operator. -/
def bracketedLeft (outer : Operator) : Expr α → Bool
  | .binary inner _ _ => outer.bracketsLeft inner
  | .choose .. => true
  | _ => false

/-- The expression is put in parentheses on the right of an operator. -/
def bracketedRight (outer : Operator) : Expr α → Bool
  | .binary inner _ _ => outer.bracketsRight inner
  | .choose .. => true
  | _ => false

/-- The expression is put in parentheses as the body of a function. -/
def bracketedBody : Expr α → Bool
  | .choose .. => true
  | _ => false

mutual

/-- The text of an expression. -/
def text (dialect : Dialect) : Expr α → String
  | .literal value => Numeral.plain value
  | .nan => "NaN"
  | .variable name => name
  | .binary operator left right =>
    bracket (left.bracketedLeft operator) (left.text dialect) ++ " " ++ operator.sign ++ " " ++
      bracket (right.bracketedRight operator) (right.text dialect)
  | .choose test yes no =>
    test.text dialect ++ " ? " ++ yes.text dialect ++ " : " ++ no.text dialect
  | .call callee arguments => callee ++ "(" ++ commas (texts dialect arguments) ++ ")"
  | .builtin callee arguments =>
    callee.name ++ "(" ++ commas (texts dialect arguments) ++ ")"
  | .item entries index => entries.text dialect ++ "[" ++ index.text dialect ++ "]"
  | .size entries => entries.text dialect ++ ".length"
  | .array entries => "[" ++ commas (texts dialect entries) ++ "]"
  | .incremented name => "++" ++ name
  | .function parameters body =>
    signature dialect parameters .number ++ " => " ++
      bracket body.bracketedBody (body.text dialect)

/-- The texts of expressions. -/
def texts (dialect : Dialect) : List (Expr α) → List String
  | [] => []
  | expr :: rest => expr.text dialect :: texts dialect rest

end

end Expr

/-- The text of a statement on one line. -/
def Simple.text (dialect : Dialect) : Simple α → String
  | .constant name kind value =>
    "const " ++ name ++ ((kind.map (·.text dialect)).getD "") ++ " = " ++
      value.text dialect ++ ";"
  | .constantPair first second value =>
    "const [" ++ first ++ ", " ++ second ++ "] = " ++ value.text dialect ++ ";"
  | .variable name value => "let " ++ name ++ " = " ++ value.text dialect ++ ";"
  | .assign name value => name ++ " = " ++ value.text dialect ++ ";"
  | .subtract name value => name ++ " -= " ++ value.text dialect ++ ";"
  | .increment name => "++" ++ name ++ ";"
  | .decrement name => "--" ++ name ++ ";"
  | .push array value => array ++ ".push(" ++ value.text dialect ++ ");"
  | .result value => "return " ++ value.text dialect ++ ";"
  | .leave => "break;"

/-- Lines moved to the right by one step. -/
def indent (lines : List String) : List String := lines.map ("  " ++ ·)

/-- The head of a loop that counts. -/
def countHead (dialect : Dialect) (counter : String) (bound : Expr α) : String :=
  "for (let " ++ counter ++ " = 0; " ++ counter ++ " < " ++ bound.text dialect ++ "; ++" ++
    counter ++ ")"

namespace Stmt

mutual

/-- The lines of a statement. -/
def lines (dialect : Dialect) : Stmt α → List String
  | .simple statement => [statement.text dialect]
  | .blank => [""]
  | .longFunction name parameters body =>
    ["const " ++ name ++ " = " ++ signature dialect parameters .number ++ " =>",
      "  " ++ body.text dialect ++ ";"]
  | .localFunction name parameters body =>
    ["const " ++ name ++ " = " ++ signature dialect parameters .number ++ " => \x7b"] ++
      indent (allLines dialect body) ++ ["\x7d;"]
  | .function name parameters returns body =>
    ["function " ++ name ++ signature dialect parameters returns ++ " \x7b"] ++
      indent (allLines dialect body) ++ ["\x7d"]
  | .guarded test statement =>
    ["if (" ++ test.text dialect ++ ") " ++ statement.text dialect]
  | .either test yes no =>
    ["if (" ++ test.text dialect ++ ") " ++ yes.text dialect, "else " ++ no.text dialect]
  | .block test body =>
    ["if (" ++ test.text dialect ++ ") \x7b"] ++ indent (allLines dialect body) ++ ["\x7d"]
  | .countOne counter bound statement =>
    [countHead dialect counter bound ++ " " ++ statement.text dialect]
  | .count counter bound body =>
    [countHead dialect counter bound ++ " \x7b"] ++ indent (allLines dialect body) ++ ["\x7d"]
  | .loopOne test statement =>
    ["while (" ++ test.text dialect ++ ") " ++ statement.text dialect]
  | .loop test body =>
    ["while (" ++ test.text dialect ++ ") \x7b"] ++ indent (allLines dialect body) ++ ["\x7d"]
  | .loopAfter body test =>
    ["do \x7b"] ++ indent (allLines dialect body) ++
      ["\x7d while (" ++ test.text dialect ++ ");"]
  | .table name kind rows =>
    ["const " ++ name ++ kind.text dialect ++ " = ["] ++
      indent (rows.map fun row => row.text dialect ++ ",") ++ ["];"]

/-- The lines of statements. -/
def allLines (dialect : Dialect) : List (Stmt α) → List String
  | [] => []
  | statement :: rest => statement.lines dialect ++ allLines dialect rest

end

end Stmt

/-- Lines with an end after each. -/
def unlines (lines : List String) : String := String.join (lines.map (· ++ "\n"))

/-- The text of statements. -/
def text (dialect : Dialect) (statements : List (Stmt α)) : String :=
  unlines (Stmt.allLines dialect statements)

end Easing.Script
