/-
**The source of a compiled curve is its text with the function around it.**

A script is printed line by line, and its text can be cut into the same lines again: names, numbers
and signs hold neither line feeds nor carriage returns.

* `isOneLine`: a text without them; `splitLines_unlines`: such lines come back from their text.
* `Expr.names`, `Stmt.names`: the names in a tree; `Stmt.isOneLine_allLines`: its lines, when all
  its names are on one line.
* `names_script`, `names_lookup`: the scripts of curves have such names.
* `CurveFunction.source_eq_wrap`: the source and the text.
-/
import Easing.Proofs.Script.Annotations

set_option linter.unusedSectionVars false

namespace Easing

namespace Script

/-! ### One line -/

/-- A text without line feeds and carriage returns. -/
def isOneLine (text : String) : Bool := text.toList.all fun c => c != '\n' && c != '\r'

@[simp] theorem isOneLine_append (front back : String) :
    isOneLine (front ++ back) = (isOneLine front && isOneLine back) := by
  unfold isOneLine
  rw [String.toList_append, List.all_append]

theorem not_mem_feed {text : String} (oneLine : isOneLine text = true) : '\n' ∉ text.toList := by
  intro member
  have own := List.all_eq_true.mp oneLine '\n' member
  cases own

/-- A line is cut off at its line feed. -/
theorem splitChars_append {line : List Char}
    (oneLine : (line.all fun c => c != '\n' && c != '\r') = true) (rest : List Char) :
    splitChars (line ++ '\n' :: rest) = line :: splitChars rest := by
  induction line with
  | nil => rfl
  | cons c line ih =>
    simp only [List.all_cons, Bool.and_eq_true, bne_iff_ne] at oneLine
    obtain ⟨⟨noFeed, noReturn⟩, others⟩ := oneLine
    rw [List.cons_append, splitChars, ih others]
    · exact noFeed
    · exact fun _ carriage _ => noReturn carriage

theorem toList_unlines_cons (line : String) (lines : List String) :
    (unlines (line :: lines)).toList = line.toList ++ '\n' :: (unlines lines).toList := by
  simp [unlines]

/-- **Lines come back from their text.** -/
theorem splitLines_unlines {lines : List String} (all : lines.all isOneLine = true) :
    splitLines (unlines lines) = lines := by
  unfold splitLines
  induction lines with
  | nil => rfl
  | cons line lines ih =>
    obtain ⟨own, others⟩ := Bool.and_eq_true_iff.mp all
    rw [toList_unlines_cons, splitChars_append own, List.map_cons, ih others,
      String.ofList_toList]

/-! ### Parts of a line -/

theorem isOneLine_commas {texts : List String} (all : texts.all isOneLine = true) :
    isOneLine (commas texts) = true := by
  unfold commas
  induction texts with
  | nil => rfl
  | cons text rest ih =>
    obtain ⟨own, others⟩ := Bool.and_eq_true_iff.mp all
    cases rest with
    | nil => exact own
    | cons next rest =>
      rw [String.intercalate_cons_cons, isOneLine_append, isOneLine_append, own, ih others]
      rfl

theorem isOneLine_bracket {wanted : Bool} {text : String} (own : isOneLine text = true) :
    isOneLine (bracket wanted text) = true := by
  cases wanted with
  | true => simp +decide [bracket, own]
  | false => exact own

@[simp] theorem isOneLine_kind (kind : Kind) (dialect : Dialect) :
    isOneLine (kind.text dialect) = true := by
  cases dialect <;> cases kind <;> rfl

@[simp] theorem isOneLine_sign (operator : Operator) : isOneLine operator.sign = true := by
  cases operator <;> rfl

@[simp] theorem isOneLine_builtin (callee : Builtin) : isOneLine callee.name = true := by
  cases callee <;> rfl

theorem isOneLine_signature {dialect : Dialect} {names : List String} (returns : Kind)
    (all : names.all isOneLine = true) : isOneLine (signature dialect names returns) = true := by
  have parameters : (names.map (· ++ Kind.number.text dialect)).all isOneLine = true := by
    simpa using all
  simp +decide [signature, isOneLine_commas parameters]

/-- Numbers are on one line. -/
theorem NumberText.isOneLine {text : String} (number : NumberText text) :
    Script.isOneLine text = true := number.all_ne ⟨rfl, rfl⟩ (by decide)

/-! ### Names -/

section Names

variable {α : Type}

mutual

/-- All names in an expression, those of parameters included. -/
def Expr.names : Expr α → List String
  | .literal _ | .nan => []
  | .variable name | .incremented name => [name]
  | .binary _ left right => left.names ++ right.names
  | .choose test yes no => test.names ++ yes.names ++ no.names
  | .call callee arguments => callee :: Expr.allNames arguments
  | .builtin _ arguments => Expr.allNames arguments
  | .item entries place => entries.names ++ place.names
  | .size entries => entries.names
  | .array entries => Expr.allNames entries
  | .function parameters body => parameters ++ body.names

/-- All names in expressions. -/
def Expr.allNames : List (Expr α) → List String
  | [] => []
  | expr :: rest => expr.names ++ Expr.allNames rest

end

/-- All names in a statement on one line. -/
def Simple.names : Simple α → List String
  | .constant name _ value | .variable name value | .assign name value | .subtract name value
  | .push name value => name :: value.names
  | .constantPair first second value => first :: second :: value.names
  | .increment name | .decrement name => [name]
  | .result value => value.names
  | .leave => []

mutual

/-- All names in a statement. -/
def Stmt.names : Stmt α → List String
  | .simple statement => statement.names
  | .blank => []
  | .longFunction name parameters body => name :: parameters ++ body.names
  | .localFunction name parameters body | .function name parameters _ body =>
    name :: parameters ++ Stmt.allNames body
  | .guarded test statement | .loopOne test statement => test.names ++ statement.names
  | .either test yes no => test.names ++ yes.names ++ no.names
  | .block test body | .loop test body | .loopAfter body test => test.names ++ Stmt.allNames body
  | .countOne counter bound statement => counter :: bound.names ++ statement.names
  | .count counter bound body => counter :: bound.names ++ Stmt.allNames body
  | .table name _ rows => name :: Expr.allNames rows

/-- All names in statements. -/
def Stmt.allNames : List (Stmt α) → List String
  | [] => []
  | statement :: rest => statement.names ++ Stmt.allNames rest

end

theorem allNames_append (front back : List (Stmt α)) :
    Stmt.allNames (front ++ back) = Stmt.allNames front ++ Stmt.allNames back := by
  induction front with
  | nil => rfl
  | cons statement front ih =>
    rw [List.cons_append, Stmt.allNames, Stmt.allNames, ih, List.append_assoc]

theorem allNames_map {β : Type} {expr : β → Expr α} (nameless : ∀ b, (expr b).names = [])
    (entries : List β) : Expr.allNames (entries.map expr) = [] := by
  induction entries with
  | nil => rfl
  | cons entry rest ih => rw [List.map_cons, Expr.allNames, nameless, ih, List.append_nil]

end Names

/-! ### Expressions -/

section Lines

variable {α : Type} [Numeral α] (numbers : ∀ a : α, NumberText (Numeral.plain a))
  (dialect : Dialect)

include numbers

mutual

/-- **The text of an expression is on one line**, when its names are. -/
theorem Expr.isOneLine_text : ∀ expr : Expr α, expr.names.all isOneLine = true →
    isOneLine (expr.text dialect) = true
  | .literal a, _ => (numbers a).isOneLine
  | .nan, _ => show isOneLine "NaN" = true from rfl
  | .variable name, all => by simpa [Expr.names, Expr.text] using all
  | .incremented name, all => by
    have own : isOneLine name = true := by simpa [Expr.names] using all
    simp +decide [Expr.text, own]
  | .binary operator left right, all => by
    simp only [Expr.names, List.all_append, Bool.and_eq_true] at all
    simp +decide [Expr.text, isOneLine_bracket (Expr.isOneLine_text left all.1),
      isOneLine_bracket (Expr.isOneLine_text right all.2)]
  | .choose test yes no, all => by
    simp only [Expr.names, List.all_append, Bool.and_eq_true] at all
    obtain ⟨⟨isTest, isYes⟩, isNo⟩ := all
    simp +decide [Expr.text, Expr.isOneLine_text test isTest, Expr.isOneLine_text yes isYes,
      Expr.isOneLine_text no isNo]
  | .call callee arguments, all => by
    obtain ⟨isCallee, areArguments⟩ := Bool.and_eq_true_iff.mp all
    simp +decide [Expr.text, isCallee,
      isOneLine_commas (Expr.isOneLine_texts arguments areArguments)]
  | .builtin callee arguments, all => by
    simp +decide [Expr.text, isOneLine_commas (Expr.isOneLine_texts arguments all)]
  | .item entries place, all => by
    simp only [Expr.names, List.all_append, Bool.and_eq_true] at all
    simp +decide [Expr.text, Expr.isOneLine_text entries all.1, Expr.isOneLine_text place all.2]
  | .size entries, all => by simp +decide [Expr.text, Expr.isOneLine_text entries all]
  | .array entries, all => by
    simp +decide [Expr.text, isOneLine_commas (Expr.isOneLine_texts entries all)]
  | .function parameters body, all => by
    simp only [Expr.names, List.all_append, Bool.and_eq_true] at all
    simp +decide [Expr.text, isOneLine_signature .number all.1,
      isOneLine_bracket (Expr.isOneLine_text body all.2)]

/-- The same of several expressions. -/
theorem Expr.isOneLine_texts : ∀ exprs : List (Expr α),
    (Expr.allNames exprs).all isOneLine = true → (Expr.texts dialect exprs).all isOneLine = true
  | [], _ => rfl
  | expr :: rest, all => by
    simp only [Expr.allNames, List.all_append, Bool.and_eq_true] at all
    simp [Expr.texts, Expr.isOneLine_text expr all.1, Expr.isOneLine_texts rest all.2]

end

/-! ### Statements -/

theorem Simple.isOneLine_text {statement : Simple α} (all : statement.names.all isOneLine = true) :
    isOneLine (statement.text dialect) = true := by
  cases statement with
  | constant name kind value =>
    obtain ⟨isName, isValue⟩ := Bool.and_eq_true_iff.mp all
    have isKind : isOneLine ((kind.map (·.text dialect)).getD "") = true := by
      cases kind with
      | none => rfl
      | some kind => exact isOneLine_kind kind dialect
    simp +decide [Simple.text, isName, isKind, Expr.isOneLine_text numbers dialect value isValue]
  | constantPair first second value =>
    simp only [Simple.names, List.all_cons, Bool.and_eq_true] at all
    obtain ⟨isFirst, isSecond, isValue⟩ := all
    simp +decide [Simple.text, isFirst, isSecond,
      Expr.isOneLine_text numbers dialect value isValue]
  | «variable» name value | assign name value | subtract name value | push name value =>
    obtain ⟨isName, isValue⟩ := Bool.and_eq_true_iff.mp all
    simp +decide [Simple.text, isName, Expr.isOneLine_text numbers dialect value isValue]
  | increment name | decrement name =>
    have isName : isOneLine name = true := by simpa [Simple.names] using all
    simp +decide [Simple.text, isName]
  | result value => simp +decide [Simple.text, Expr.isOneLine_text numbers dialect value all]
  | leave => exact (by decide : isOneLine "break;" = true)

omit numbers in
theorem isOneLine_indent {lines : List String} (all : lines.all isOneLine = true) :
    (indent lines).all isOneLine = true := by
  simp_all +decide [indent]

theorem isOneLine_rows {rows : List (Expr α)} (all : (Expr.allNames rows).all isOneLine = true) :
    (rows.map fun row => row.text dialect ++ ",").all isOneLine = true := by
  induction rows with
  | nil => rfl
  | cons row rest ih =>
    simp only [Expr.allNames, List.all_append, Bool.and_eq_true] at all
    rw [List.map_cons, List.all_cons, ih all.2, isOneLine_append,
      Expr.isOneLine_text numbers dialect row all.1]
    rfl

theorem isOneLine_countHead {counter : String} {bound : Expr α}
    (isCounter : isOneLine counter = true) (isBound : bound.names.all isOneLine = true) :
    isOneLine (countHead dialect counter bound) = true := by
  unfold countHead
  simp +decide [isCounter, Expr.isOneLine_text numbers dialect bound isBound]

mutual

/-- **The lines of a statement are lines**, when its names are on one line. -/
theorem Stmt.isOneLine_lines : ∀ statement : Stmt α, statement.names.all isOneLine = true →
    (statement.lines dialect).all isOneLine = true
  | .simple statement, all => by
    simp [Stmt.lines, Simple.isOneLine_text numbers dialect all]
  | .blank, _ => show [""].all isOneLine = true from rfl
  | .longFunction name parameters body, all => by
    simp only [Stmt.names, List.all_cons, List.all_append, Bool.and_eq_true] at all
    obtain ⟨⟨isName, areParameters⟩, isBody⟩ := all
    simp +decide [Stmt.lines, isName, isOneLine_signature .number areParameters,
      Expr.isOneLine_text numbers dialect body isBody]
  | .localFunction name parameters body, all | .function name parameters _ body, all => by
    simp only [Stmt.names, List.all_cons, List.all_append, Bool.and_eq_true] at all
    obtain ⟨⟨isName, areParameters⟩, isBody⟩ := all
    simp +decide [Stmt.lines, isName, isOneLine_signature _ areParameters,
      isOneLine_indent (Stmt.isOneLine_allLines body isBody)]
  | .guarded test statement, all | .loopOne test statement, all => by
    simp only [Stmt.names, List.all_append, Bool.and_eq_true] at all
    simp +decide [Stmt.lines, Expr.isOneLine_text numbers dialect test all.1,
      Simple.isOneLine_text numbers dialect all.2]
  | .either test yes no, all => by
    simp only [Stmt.names, List.all_append, Bool.and_eq_true] at all
    obtain ⟨⟨isTest, isYes⟩, isNo⟩ := all
    simp +decide [Stmt.lines, Expr.isOneLine_text numbers dialect test isTest,
      Simple.isOneLine_text numbers dialect isYes, Simple.isOneLine_text numbers dialect isNo]
  | .block test body, all | .loop test body, all | .loopAfter body test, all => by
    simp only [Stmt.names, List.all_append, Bool.and_eq_true] at all
    simp +decide [Stmt.lines, Expr.isOneLine_text numbers dialect test all.1,
      isOneLine_indent (Stmt.isOneLine_allLines body all.2)]
  | .countOne counter bound statement, all => by
    simp only [Stmt.names, List.all_cons, List.all_append, Bool.and_eq_true] at all
    obtain ⟨⟨isCounter, isBound⟩, isStatement⟩ := all
    simp +decide [Stmt.lines, isOneLine_countHead numbers dialect isCounter isBound,
      Simple.isOneLine_text numbers dialect isStatement]
  | .count counter bound body, all => by
    simp only [Stmt.names, List.all_cons, List.all_append, Bool.and_eq_true] at all
    obtain ⟨⟨isCounter, isBound⟩, isBody⟩ := all
    simp +decide [Stmt.lines, isOneLine_countHead numbers dialect isCounter isBound,
      isOneLine_indent (Stmt.isOneLine_allLines body isBody)]
  | .table name kind rows, all => by
    obtain ⟨isName, areRows⟩ := Bool.and_eq_true_iff.mp all
    simp +decide [Stmt.lines, isName, isOneLine_indent (isOneLine_rows numbers dialect areRows)]

/-- The same of several statements. -/
theorem Stmt.isOneLine_allLines : ∀ body : List (Stmt α),
    (Stmt.allNames body).all isOneLine = true → (Stmt.allLines dialect body).all isOneLine = true
  | [], _ => rfl
  | statement :: rest, all => by
    simp only [Stmt.allNames, List.all_append, Bool.and_eq_true] at all
    simp [Stmt.allLines, Stmt.isOneLine_lines statement all.1,
      Stmt.isOneLine_allLines rest all.2]

end

end Lines

/-! ### Scripts -/

section Scripts

variable {α : Type} [Scalar α]

@[simp] theorem isOneLine_solverName (index : Nat) : isOneLine (solverName index) = true := by
  have digits : isOneLine (toString index) = true :=
    NumberText.isOneLine (.inr (allMarks_toString index))
  rw [solverName, isOneLine_append, digits]
  rfl

theorem names_solverConstants (index : Nat) (branches : List (Branch α)) :
    (Stmt.allNames (solverConstants index branches)).all isOneLine = true := by
  induction branches generalizing index with
  | nil => rfl
  | cons branch rest ih =>
    rw [solverConstants, allNames_append, List.all_append, ih, Bool.and_true]
    unfold solverConstant
    cases branch.solver? with
    | none => rfl
    | some shared =>
      simp +decide [Stmt.allNames, Stmt.names, Simple.names, Expr.names, Expr.allNames]

theorem names_branchValue (index : Nat) (branch : Branch α) :
    (branchValue index branch).names.all isOneLine = true := by
  unfold branchValue
  cases branch.shape with
  | line slope => rfl
  | cubic shared =>
    simp +decide [Expr.names, Expr.allNames, whole, div, sub, var]

theorem names_branchResults (index : Nat) (branches : List (Branch α)) :
    (Stmt.allNames (branchResults index branches)).all isOneLine = true := by
  induction branches generalizing index with
  | nil => rfl
  | cons branch rest ih =>
    have own := names_branchValue index branch
    cases rest with
    | nil => simpa [branchResults, Stmt.allNames, Stmt.names, Simple.names] using own
    | cons next rest =>
      rw [branchResults, Stmt.allNames, List.all_append, ih, Bool.and_true]
      simp +decide [Stmt.names, Simple.names, Expr.names, var, own]

/-- The names in the script of a curve are on one line. -/
theorem names_script (curve : Curve α) :
    (Stmt.allNames curve.script).all isOneLine = true := by
  have fixed : (Stmt.allNames (solver ++ [.blank] : List (Stmt α))).all isOneLine = true := by cbv
  unfold Curve.script
  rw [allNames_append, List.all_append, names_branchResults, Bool.and_true]
  cases curve.hasCubic with
  | true =>
    rw [if_pos rfl, allNames_append, List.all_append, fixed, names_solverConstants]
    rfl
  | false => rfl

/-- The names in the script of a sampled curve are on one line. -/
theorem names_lookup (curve : SampledCurve α) :
    (Stmt.allNames curve.script).all isOneLine = true := by
  have fixed : (Stmt.allNames (outside ++ search ++ inside : List (Stmt α))).all isOneLine =
      true := by cbv
  have ranges : Expr.allNames (curve.tables.toList.map fun table =>
      (.array [.literal table.start, .literal table.stop] : Expr α)) = [] :=
    allNames_map (fun _ => rfl) _
  have row (table : SampleTable α) :
      (.array (table.samples.toList.map .literal) : Expr α).names = [] :=
    allNames_map (fun _ => rfl) table.samples.toList
  have samples := allNames_map row curve.tables.toList
  unfold SampledCurve.script
  rw [List.append_assoc, List.append_assoc, ← List.append_assoc outside, allNames_append,
    List.all_append, fixed, Bool.and_true]
  simp +decide [tables, Stmt.allNames, Stmt.names, Simple.names, Expr.names, ranges, samples]

end Scripts

end Script

/-! ### Sources -/

namespace CurveFunction

variable {α : Type} [Scalar α] [Numeral α]

/-- The script of the function: its body. -/
def script : CurveFunction α → List (Script.Stmt α)
  | .exact curve => curve.script
  | .sampled curve => curve.script

theorem source_eq_wrapLines (function : CurveFunction α) (dialect : Script.Dialect) :
    function.source dialect =
      Script.wrapLines dialect (Script.Stmt.allLines dialect function.script) := by
  cases function <;> rfl

/-- Every line of the body is a line. -/
theorem isOneLine_script (numbers : ∀ a : α, Script.NumberText (Numeral.plain a))
    (function : CurveFunction α) (dialect : Script.Dialect) :
    (Script.Stmt.allLines dialect function.script).all Script.isOneLine = true := by
  cases function with
  | exact curve => exact Script.Stmt.isOneLine_allLines numbers dialect _ (Script.names_script curve)
  | sampled curve =>
    exact Script.Stmt.isOneLine_allLines numbers dialect _ (Script.names_lookup curve)

/-- **The source is the function around the text of the script.** -/
theorem source_eq_wrap (numbers : ∀ a : α, Script.NumberText (Numeral.plain a))
    (function : CurveFunction α) (dialect : Script.Dialect) :
    function.source dialect = Script.wrap dialect (Script.text dialect function.script) := by
  unfold Script.wrap Script.text
  rw [Script.splitLines_unlines (function.isOneLine_script numbers dialect),
    source_eq_wrapLines]

end CurveFunction

end Easing
