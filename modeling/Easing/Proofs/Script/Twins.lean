/-
**Texts in the two dialects.**

A tree has one text with annotations and one without. The two are twins: put before a text with
annotations and the same text without, they give again a text with annotations and the same text
without. That is so of trees whose names hold no colon and whose choices stand in parentheses.

* `Twins`: the relation, closed under putting texts one after the other.
* `NumberText`: how numbers are written.
* `Expr.tidy`, `Stmt.tidy`: the trees; `Expr.twins_body`, `Stmt.twins_allLines`: their texts.
* `twins_wrapLines`: the function around the lines of a body.
-/
import Easing.Proofs.Script.Erasure
import Mathlib.Data.List.Forall2

set_option linter.unusedSectionVars false

namespace Easing

namespace Script

/-! ### Twins -/

/-- Two texts that make, with whatever comes after them, a text with annotations and the same text
without. They are empty together, so that a line is indented in both or in none. -/
structure Twins (typed untyped : String) : Prop where
  extend : ∀ {t u : List Char}, Annotated Kind.order t u →
    Annotated Kind.order (typed.toList ++ t) (untyped.toList ++ u)
  empty : typed = "" ↔ untyped = ""

/-- A text without colons and placeholders. -/
def isBare (text : String) : Bool := text.toList.all fun c => c != ':' && c != '@'

theorem bare_append {front back : String} (isFront : isBare front = true)
    (isBack : isBare back = true) : isBare (front ++ back) = true := by
  unfold isBare at isFront isBack ⊢
  rw [String.toList_append, List.all_append, isFront, isBack]
  rfl

theorem annotated_bare {text : List Char} (bare : text.all fun c => c != ':' && c != '@')
    {t u : List Char} (annotated : Annotated Kind.order t u) :
    Annotated Kind.order (text ++ t) (text ++ u) := by
  induction text with
  | nil => exact annotated
  | cons c text ih =>
    simp only [List.all_cons, Bool.and_eq_true, bne_iff_ne] at bare
    exact .plain bare.1.1 bare.1.2 (ih bare.2)

namespace Twins

variable {a b a' b' : String}

theorem of_bare (bare : isBare a = true) : Twins a a := ⟨annotated_bare bare, Iff.rfl⟩

theorem append (first : Twins a a') (second : Twins b b') : Twins (a ++ b) (a' ++ b') where
  extend annotated := by
    rw [String.toList_append, String.toList_append, List.append_assoc, List.append_assoc]
    exact first.extend (second.extend annotated)
  empty := by
    rw [String.append_eq_empty_iff, String.append_eq_empty_iff, first.empty, second.empty]

/-- A text between two others that are the same in both. -/
theorem between (twins : Twins a a') {front back : String} (isFront : isBare front = true)
    (isBack : isBare back = true) : Twins (front ++ a ++ back) (front ++ a' ++ back) :=
  ((of_bare isFront).append twins).append (of_bare isBack)

/-- An annotation, with something behind it that is no bracket. -/
theorem note (kind : Kind) {back : String} (bare : isBare back = true)
    (apart : back.toList.head?.any (· != '[') = true) :
    Twins (kind.text .typed ++ back) (kind.text .untyped ++ back) := by
  obtain ⟨c, head, other⟩ : ∃ c, back.toList.head? = some c ∧ (c != '[') = true :=
    (Option.any_eq_true _ _).mp apart
  have untyped : kind.text .untyped ++ back = back := String.empty_append
  rw [untyped]
  constructor
  · intro t u annotated
    have plain : c ≠ ':' := by
      have isBare := List.all_eq_true.mp bare c (List.mem_of_head? head)
      exact bne_iff_ne.mp (Bool.and_eq_true_iff.mp isBare).1
    rw [String.toList_append, List.append_assoc]
    refine .note kind.mem_order ?_ (annotated_bare bare annotated)
    rw [List.head?_append, head]
    rintro _ ⟨⟩
    simpa using ⟨bne_iff_ne.mp other, plain⟩
  · have some : back ≠ "" := by
      rintro rfl
      cases head
    rw [String.append_eq_empty_iff]
    exact iff_of_false (fun none => some none.2) some

/-- What a choice gives last, to the parenthesis that closes it. Without the parenthesis an empty
text would leave the colon to what comes after it. -/
theorem alternative {no no' : String} (isNo : Twins no no')
    (apart : ∀ c ∈ no.toList.head?, c ∉ noteOpenings) :
    Twins (": " ++ no ++ ")") (": " ++ no' ++ ")") := by
  constructor
  · intro t u annotated
    have ends : Annotated Kind.order (')' :: t) (')' :: u) :=
      .plain (by decide) (by decide) annotated
    have head : ∀ c ∈ (no.toList ++ ')' :: t).head?, c ∉ noteOpenings := by
      intro c first
      rw [List.head?_append] at first
      cases inside : no.toList.head? with
      | none =>
        rw [inside] at first
        obtain rfl : ')' = c := Option.some.inj first
        decide
      | some d =>
        rw [inside] at first
        obtain rfl : d = c := Option.some.inj first
        exact apart d inside
    have all := Annotated.alternative head (isNo.extend ends)
    simpa using all
  · simp

/-- A choice in parentheses. -/
theorem choose {test test' yes yes' no no' : String} (isTest : Twins test test')
    (isYes : Twins yes yes') (isNo : Twins no no')
    (apart : ∀ c ∈ no.toList.head?, c ∉ noteOpenings) :
    Twins ("(" ++ (test ++ " ? " ++ yes ++ " : " ++ no) ++ ")")
      ("(" ++ (test' ++ " ? " ++ yes' ++ " : " ++ no') ++ ")") := by
  have regroup : ∀ a b c : String, "(" ++ (a ++ " ? " ++ b ++ " : " ++ c) ++ ")" =
      "(" ++ a ++ " ? " ++ b ++ " " ++ (": " ++ c ++ ")") := by
    intro a b c
    rw [show " : " = " " ++ ": " from rfl]
    simp only [String.append_assoc]
  rw [regroup, regroup]
  exact (((((of_bare rfl).append isTest).append (of_bare rfl)).append isYes).append
    (of_bare rfl)).append (isNo.alternative apart)

/-- Several texts with commas between them. -/
theorem commas {texts texts' : List String} (all : List.Forall₂ Twins texts texts') :
    Twins (Script.commas texts) (Script.commas texts') := by
  induction all with
  | nil => exact of_bare rfl
  | cons first rest ih =>
    cases rest with
    | nil => exact first
    | cons next rest =>
      unfold Script.commas
      rw [String.intercalate_cons_cons, String.intercalate_cons_cons]
      exact (first.append (of_bare rfl)).append ih

end Twins

/-- The parameters of a function, to the parenthesis that closes them. -/
theorem twins_parameters {names : List String} (bare : names.all isBare = true) :
    Twins (commas (names.map (· ++ Kind.number.text .typed)) ++ ")")
      (commas (names.map (· ++ Kind.number.text .untyped)) ++ ")") := by
  induction names with
  | nil => exact .of_bare rfl
  | cons name rest ih =>
    obtain ⟨own, others⟩ := Bool.and_eq_true_iff.mp bare
    cases rest with
    | nil =>
      show Twins (name ++ Kind.number.text .typed ++ ")") (name ++ Kind.number.text .untyped ++ ")")
      rw [String.append_assoc, String.append_assoc]
      exact (Twins.of_bare own).append (.note .number rfl rfl)
    | cons next rest =>
      have regroup : ∀ dialect, commas ((name :: next :: rest).map
          (· ++ Kind.number.text dialect)) ++ ")" =
            name ++ (Kind.number.text dialect ++ ", ") ++
              (commas ((next :: rest).map (· ++ Kind.number.text dialect)) ++ ")") := by
        intro dialect
        unfold commas
        rw [List.map_cons, List.map_cons, String.intercalate_cons_cons]
        simp only [String.append_assoc]
      -- an annotation goes with the comma behind it
      rw [regroup, regroup]
      exact ((Twins.of_bare own).append (.note .number rfl rfl)).append (ih others)

/-- The parameters of a function and what it returns, with something behind them that is no
bracket. -/
theorem twins_signature {names : List String} (returns : Kind) {back : String}
    (bare : names.all isBare = true) (isBack : isBare back = true)
    (apart : back.toList.head?.any (· != '[') = true) :
    Twins (signature .typed names returns ++ back) (signature .untyped names returns ++ back) := by
  have regroup : ∀ dialect, signature dialect names returns ++ back =
      "(" ++ (commas (names.map (· ++ Kind.number.text dialect)) ++ ")") ++
        (returns.text dialect ++ back) := by
    intro dialect
    unfold signature
    simp only [String.append_assoc]
  rw [regroup, regroup]
  exact ((Twins.of_bare rfl).append (twins_parameters bare)).append (.note returns isBack apart)

/-- An annotation between two other texts. -/
theorem twins_annotated (kind : Kind) {front back : String} (isFront : isBare front = true)
    (isBack : isBare back = true) (apart : back.toList.head?.any (· != '[') = true) :
    Twins (front ++ kind.text .typed ++ back) (front ++ kind.text .untyped ++ back) := by
  rw [String.append_assoc, String.append_assoc]
  exact (Twins.of_bare isFront).append (.note kind isBack apart)

/-- A declaration, to the parameters and what comes behind them. -/
theorem twins_declared {names : List String} (returns : Kind) {front back : String}
    (isFront : isBare front = true) (bare : names.all isBare = true) (isBack : isBare back = true)
    (apart : back.toList.head?.any (· != '[') = true) :
    Twins (front ++ signature .typed names returns ++ back)
      (front ++ signature .untyped names returns ++ back) := by
  rw [String.append_assoc, String.append_assoc]
  exact (Twins.of_bare isFront).append (twins_signature returns bare isBack apart)

/-! ### Numbers -/

/-- A text of digits, points and minus signs. -/
def AllMarks (text : String) : Prop := ∀ c ∈ text.toList, c.isDigit = true ∨ c = '.' ∨ c = '-'

/-- The text of a number: digits, points and minus signs, or a word. -/
def NumberText (text : String) : Prop :=
  text ∈ ["NaN", "inf", "-inf"] ∨ AllMarks text

/-- A character that is neither a digit or a mark nor a letter of a word is in no number. -/
theorem NumberText.not_mem {text : String} (number : NumberText text) {c : Char}
    (noDigit : c.isDigit = false) (noMark : c ∉ ['.', '-', 'N', 'a', 'i', 'n', 'f']) :
    c ∉ text.toList := by
  intro member
  rcases number with word | marks
  · simp only [List.mem_cons, List.not_mem_nil, or_false, not_or] at word noMark
    rcases word with rfl | rfl | rfl <;> simp [noMark] at member
  · rcases marks c member with digit | rfl | rfl
    · rw [noDigit] at digit
      cases digit
    · exact noMark (by decide)
    · exact noMark (by decide)

/-- No number holds one of two such characters. -/
theorem NumberText.all_ne {text : String} (number : NumberText text) {c d : Char}
    (noDigits : c.isDigit = false ∧ d.isDigit = false)
    (noMarks : c ∉ ['.', '-', 'N', 'a', 'i', 'n', 'f'] ∧
      d ∉ ['.', '-', 'N', 'a', 'i', 'n', 'f']) :
    (text.toList.all fun other => other != c && other != d) = true := by
  refine List.all_eq_true.mpr fun other member => ?_
  rw [Bool.and_eq_true, bne_iff_ne, bne_iff_ne]
  constructor
  · rintro rfl
    exact number.not_mem noDigits.1 noMarks.1 member
  · rintro rfl
    exact number.not_mem noDigits.2 noMarks.2 member

theorem NumberText.isBare {text : String} (number : NumberText text) :
    Script.isBare text = true := number.all_ne ⟨rfl, rfl⟩ (by decide)

theorem NumberText.apart {text : String} (number : NumberText text) :
    ∀ c ∈ text.toList.head?, c ∉ noteOpenings := by
  rcases number with word | marks
  · simp only [List.mem_cons, List.not_mem_nil, or_false] at word
    rcases word with rfl | rfl | rfl <;> (rintro _ ⟨⟩; decide)
  · intro c first
    rcases marks c (List.mem_of_head? first) with digit | rfl | rfl
    · intro opening
      simp only [noteOpenings, List.mem_cons, List.not_mem_nil, or_false] at opening
      rcases opening with rfl | rfl | rfl | rfl <;> cases digit
    · decide
    · decide

/-! ### Expressions -/

variable {α : Type}

namespace Expr

/-- The text begins like no annotation. -/
def opensApart : Expr α → Bool
  | .literal _ => true
  | .call callee _ => callee.toList.head?.any (· ∉ noteOpenings)
  | _ => false

mutual

/-- The names inside are bare, and choices stand in parentheses, as this expression may do itself.
What a choice gives last begins like no annotation. -/
def tidy (bracketed : Bool) : Expr α → Bool
  | .literal _ | .nan => true
  | .variable name | .incremented name => isBare name
  | .binary _ left right => left.tidy true && right.tidy true
  | .choose test yes no =>
    bracketed && test.tidy false && yes.tidy false && no.tidy false && no.opensApart
  | .call callee arguments => isBare callee && allTidy arguments
  | .builtin _ arguments => allTidy arguments
  | .item entries place => entries.tidy false && place.tidy false
  | .size entries => entries.tidy false
  | .array entries => allTidy entries
  | .function parameters body => parameters.all isBare && body.tidy true

/-- The same of several expressions, without parentheses. -/
def allTidy : List (Expr α) → Bool
  | [] => true
  | expr :: rest => expr.tidy false && allTidy rest

end

variable [Numeral α]

/-- Without parentheses the expression is no choice. -/
theorem tidy_alone {expr : Expr α} (tidy : expr.tidy false = true) :
    expr.tidy true = true ∧ expr.bracketedBody = false := by
  cases expr with
  | choose test yes no => cases tidy
  | _ => exact ⟨tidy, rfl⟩

end Expr

section Trees

variable [Numeral α]

/-- Operands are in parentheses when they are choices. -/
theorem twins_operand {expr : Expr α} {wanted : Bool}
    (isBody : Twins (bracket expr.bracketedBody (expr.text .typed))
      (bracket expr.bracketedBody (expr.text .untyped)))
    (choice : expr.bracketedBody = true → wanted = true) :
    Twins (bracket wanted (expr.text .typed)) (bracket wanted (expr.text .untyped)) := by
  cases isChoice : expr.bracketedBody with
  | true =>
    rw [choice isChoice]
    rwa [isChoice] at isBody
  | false =>
    rw [isChoice] at isBody
    cases wanted with
    | true => exact isBody.between rfl rfl
    | false => exact isBody

variable (numbers : ∀ a : α, NumberText (Numeral.plain a))

include numbers

theorem Expr.apart_text {expr : Expr α} (apart : expr.opensApart = true) :
    ∀ c ∈ (expr.text .typed).toList.head?, c ∉ noteOpenings := by
  cases expr with
  | literal a => exact (numbers a).apart
  | call callee arguments =>
    obtain ⟨c, head, other⟩ := (Option.any_eq_true _ _).mp apart
    intro d first
    have same : ((Expr.call callee arguments).text .typed).toList.head? = some c := by
      rw [Expr.text, String.toList_append, String.toList_append, String.toList_append,
        List.head?_append, List.head?_append, List.head?_append, head]
      rfl
    obtain rfl := Option.some.inj (same.symm.trans first)
    exact of_decide_eq_true other
  | _ => cases apart

mutual

/-- **The texts of an expression in the two dialects are twins**, in parentheses when it is a
choice. -/
theorem Expr.twins_body : ∀ expr : Expr α, expr.tidy true = true →
    Twins (bracket expr.bracketedBody (expr.text .typed))
      (bracket expr.bracketedBody (expr.text .untyped))
  | .literal a, _ => .of_bare (numbers a).isBare
  | .nan, _ => show Twins "NaN" "NaN" from .of_bare rfl
  | .variable name, tidy => .of_bare tidy
  | .incremented name, tidy => (Twins.of_bare rfl).append (.of_bare tidy)
  | .binary operator left right, tidy => by
    obtain ⟨isLeft, isRight⟩ := Bool.and_eq_true_iff.mp tidy
    have first := twins_operand (Expr.twins_body left isLeft)
      (show left.bracketedBody = true → left.bracketedLeft operator = true by
        cases left <;> simp [bracketedBody, bracketedLeft])
    have second := twins_operand (Expr.twins_body right isRight)
      (show right.bracketedBody = true → right.bracketedRight operator = true by
        cases right <;> simp [bracketedBody, bracketedRight])
    have sign : isBare operator.sign = true := by cases operator <;> rfl
    exact (((first.append (.of_bare rfl)).append (.of_bare sign)).append
      (.of_bare rfl)).append second
  | .choose test yes no, tidy => by
    simp only [Expr.tidy, Bool.and_eq_true] at tidy
    obtain ⟨⟨⟨⟨-, isTest⟩, isYes⟩, isNo⟩, apart⟩ := tidy
    exact .choose (Expr.twins_alone test isTest) (Expr.twins_alone yes isYes)
      (Expr.twins_alone no isNo) (Expr.apart_text numbers apart)
  | .call callee arguments, tidy => by
    obtain ⟨isCallee, areArguments⟩ := Bool.and_eq_true_iff.mp tidy
    exact (((Twins.of_bare isCallee).append (.of_bare rfl)).append
      (.commas (Expr.twins_texts arguments areArguments))).append (.of_bare rfl)
  | .builtin callee arguments, tidy => by
    have name : isBare callee.name = true := by cases callee <;> rfl
    exact (((Twins.of_bare name).append (.of_bare rfl)).append
      (.commas (Expr.twins_texts arguments tidy))).append (.of_bare rfl)
  | .item entries place, tidy => by
    obtain ⟨isArray, isPlace⟩ := Bool.and_eq_true_iff.mp tidy
    exact (((Expr.twins_alone entries isArray).append (.of_bare rfl)).append
      (Expr.twins_alone place isPlace)).append (.of_bare rfl)
  | .size entries, tidy => (Expr.twins_alone entries tidy).append (.of_bare rfl)
  | .array entries, tidy => (Twins.commas (Expr.twins_texts entries tidy)).between rfl rfl
  | .function parameters body, tidy => by
    obtain ⟨bare, isBody⟩ := Bool.and_eq_true_iff.mp tidy
    exact (twins_signature .number bare rfl rfl).append (Expr.twins_body body isBody)

/-- The same of an expression that is no choice. -/
theorem Expr.twins_alone : ∀ expr : Expr α, expr.tidy false = true →
    Twins (expr.text .typed) (expr.text .untyped)
  | expr, tidy => by
    obtain ⟨isBody, noChoice⟩ := Expr.tidy_alone tidy
    have twins := Expr.twins_body expr isBody
    rwa [noChoice] at twins

/-- The same of several expressions. -/
theorem Expr.twins_texts : ∀ exprs : List (Expr α), Expr.allTidy exprs = true →
    List.Forall₂ Twins (Expr.texts .typed exprs) (Expr.texts .untyped exprs)
  | [], _ => .nil
  | expr :: rest, tidy => by
    obtain ⟨own, others⟩ := Bool.and_eq_true_iff.mp tidy
    exact .cons (Expr.twins_alone expr own) (Expr.twins_texts rest others)

end

end Trees

/-! ### Statements -/

/-- The names of a statement on one line are bare, and its expression is tidy and no choice. -/
def Simple.tidy : Simple α → Bool
  | .constant name _ value | .variable name value | .assign name value | .subtract name value
  | .push name value => isBare name && value.tidy false
  | .constantPair first second value => isBare first && isBare second && value.tidy false
  | .increment name | .decrement name => isBare name
  | .result value => value.tidy false
  | .leave => true

mutual

/-- All names of a statement are bare and all its expressions are tidy and no choices. -/
def Stmt.tidy : Stmt α → Bool
  | .simple statement => statement.tidy
  | .blank => true
  | .longFunction name parameters body =>
    isBare name && parameters.all isBare && body.tidy false
  | .localFunction name parameters body | .function name parameters _ body =>
    isBare name && parameters.all isBare && Stmt.allTidy body
  | .guarded test statement | .loopOne test statement => test.tidy false && statement.tidy
  | .either test yes no => test.tidy false && yes.tidy && no.tidy
  | .block test body | .loop test body | .loopAfter body test =>
    test.tidy false && Stmt.allTidy body
  | .countOne counter bound statement => isBare counter && bound.tidy false && statement.tidy
  | .count counter bound body => isBare counter && bound.tidy false && Stmt.allTidy body
  | .table name _ rows => isBare name && Expr.allTidy rows

/-- The same of several statements. -/
def Stmt.allTidy : List (Stmt α) → Bool
  | [] => true
  | statement :: rest => statement.tidy && Stmt.allTidy rest

end

section Lines

theorem twins_append {lines lines' more more' : List String}
    (first : List.Forall₂ Twins lines lines') (second : List.Forall₂ Twins more more') :
    List.Forall₂ Twins (lines ++ more) (lines' ++ more') :=
  List.rel_append first second

theorem twins_indent {lines lines' : List String} (all : List.Forall₂ Twins lines lines') :
    List.Forall₂ Twins (indent lines) (indent lines') := by
  unfold indent
  rw [List.forall₂_map_left_iff, List.forall₂_map_right_iff]
  exact all.imp fun _ _ twins => (Twins.of_bare rfl).append twins

/-- Lines inside braces, with a line before and a line behind them. -/
theorem twins_braced {head head' foot foot' : String} {lines lines' : List String}
    (isHead : Twins head head') (all : List.Forall₂ Twins lines lines')
    (isFoot : Twins foot foot') :
    List.Forall₂ Twins ([head] ++ indent lines ++ [foot]) ([head'] ++ indent lines' ++ [foot']) :=
  twins_append (twins_append (.cons isHead .nil) (twins_indent all)) (.cons isFoot .nil)

variable [Numeral α] (numbers : ∀ a : α, NumberText (Numeral.plain a))

include numbers

theorem Simple.twins_text {statement : Simple α} (tidy : statement.tidy = true) :
    Twins (statement.text .typed) (statement.text .untyped) := by
  cases statement with
  | constant name kind value =>
    obtain ⟨isName, isValue⟩ := Bool.and_eq_true_iff.mp tidy
    have isName : isBare ("const " ++ name) = true := bare_append rfl isName
    have head : Twins ("const " ++ name ++ (kind.map (·.text .typed)).getD "" ++ " = ")
        ("const " ++ name ++ (kind.map (·.text .untyped)).getD "" ++ " = ") := by
      cases kind with
      | none => exact .of_bare (bare_append (bare_append isName rfl) rfl)
      | some kind => exact twins_annotated kind isName rfl rfl
    exact (head.append (Expr.twins_alone numbers value isValue)).append (.of_bare rfl)
  | constantPair first second value =>
    simp only [Simple.tidy, Bool.and_eq_true] at tidy
    obtain ⟨⟨isFirst, isSecond⟩, isValue⟩ := tidy
    exact (Expr.twins_alone numbers value isValue).between (bare_append (bare_append (bare_append
      (bare_append rfl isFirst) rfl) isSecond) rfl) rfl
  | «variable» name value =>
    obtain ⟨isName, isValue⟩ := Bool.and_eq_true_iff.mp tidy
    exact (Expr.twins_alone numbers value isValue).between
      (bare_append (bare_append rfl isName) rfl) rfl
  | assign name value =>
    obtain ⟨isName, isValue⟩ := Bool.and_eq_true_iff.mp tidy
    exact (Expr.twins_alone numbers value isValue).between (bare_append isName rfl) rfl
  | subtract name value =>
    obtain ⟨isName, isValue⟩ := Bool.and_eq_true_iff.mp tidy
    exact (Expr.twins_alone numbers value isValue).between (bare_append isName rfl) rfl
  | increment name => exact (Twins.of_bare tidy).between rfl rfl
  | decrement name => exact (Twins.of_bare tidy).between rfl rfl
  | push array value =>
    obtain ⟨isName, isValue⟩ := Bool.and_eq_true_iff.mp tidy
    exact (Expr.twins_alone numbers value isValue).between (bare_append isName rfl) rfl
  | result value => exact (Expr.twins_alone numbers value tidy).between rfl rfl
  | leave =>
    show Twins "break;" "break;"
    exact .of_bare rfl

theorem twins_rows {rows : List (Expr α)} (tidy : Expr.allTidy rows = true) :
    List.Forall₂ Twins (rows.map fun row => row.text .typed ++ ",")
      (rows.map fun row => row.text .untyped ++ ",") := by
  induction rows with
  | nil => exact .nil
  | cons row rest ih =>
    obtain ⟨own, others⟩ := Bool.and_eq_true_iff.mp tidy
    exact .cons ((Expr.twins_alone numbers row own).append (.of_bare rfl)) (ih others)

theorem twins_countHead {counter : String} {bound : Expr α} (isCounter : isBare counter = true)
    (isBound : bound.tidy false = true) :
    Twins (countHead .typed counter bound) (countHead .untyped counter bound) := by
  have twins := Expr.twins_alone numbers bound isBound
  unfold countHead
  exact (((twins.between (bare_append (bare_append (bare_append (bare_append rfl isCounter) rfl)
    isCounter) rfl) rfl).append (.of_bare isCounter)).append (.of_bare rfl))

mutual

/-- **The lines of a statement in the two dialects are twins**, one by one. -/
theorem Stmt.twins_lines : ∀ statement : Stmt α, statement.tidy = true →
    List.Forall₂ Twins (statement.lines .typed) (statement.lines .untyped)
  | .simple statement, tidy => .cons (Simple.twins_text numbers tidy) .nil
  | .blank, _ => .cons (.of_bare rfl) .nil
  | .longFunction name parameters body, tidy => by
    simp only [Stmt.tidy, Bool.and_eq_true] at tidy
    obtain ⟨⟨isName, bare⟩, isBody⟩ := tidy
    exact .cons (twins_declared .number (bare_append (bare_append rfl isName) rfl) bare rfl rfl)
      (.cons ((Expr.twins_alone numbers body isBody).between rfl rfl) .nil)
  | .localFunction name parameters body, tidy => by
    simp only [Stmt.tidy, Bool.and_eq_true] at tidy
    obtain ⟨⟨isName, bare⟩, isBody⟩ := tidy
    exact twins_braced
      (twins_declared .number (bare_append (bare_append rfl isName) rfl) bare rfl rfl)
      (Stmt.twins_allLines body isBody) (.of_bare rfl)
  | .function name parameters returns body, tidy => by
    simp only [Stmt.tidy, Bool.and_eq_true] at tidy
    obtain ⟨⟨isName, bare⟩, isBody⟩ := tidy
    exact twins_braced (twins_declared returns (bare_append rfl isName) bare rfl rfl)
      (Stmt.twins_allLines body isBody) (.of_bare rfl)
  | .guarded test statement, tidy => by
    obtain ⟨isTest, isStatement⟩ := Bool.and_eq_true_iff.mp tidy
    exact .cons (((Expr.twins_alone numbers test isTest).between rfl rfl).append
      (Simple.twins_text numbers isStatement)) .nil
  | .either test yes no, tidy => by
    simp only [Stmt.tidy, Bool.and_eq_true] at tidy
    obtain ⟨⟨isTest, isYes⟩, isNo⟩ := tidy
    exact .cons (((Expr.twins_alone numbers test isTest).between rfl rfl).append
      (Simple.twins_text numbers isYes))
        (.cons ((Twins.of_bare rfl).append (Simple.twins_text numbers isNo)) .nil)
  | .block test body, tidy => by
    obtain ⟨isTest, isBody⟩ := Bool.and_eq_true_iff.mp tidy
    exact twins_braced ((Expr.twins_alone numbers test isTest).between rfl rfl)
      (Stmt.twins_allLines body isBody) (.of_bare rfl)
  | .countOne counter bound statement, tidy => by
    simp only [Stmt.tidy, Bool.and_eq_true] at tidy
    obtain ⟨⟨isCounter, isBound⟩, isStatement⟩ := tidy
    exact .cons (((twins_countHead numbers isCounter isBound).append (.of_bare rfl)).append
      (Simple.twins_text numbers isStatement)) .nil
  | .count counter bound body, tidy => by
    simp only [Stmt.tidy, Bool.and_eq_true] at tidy
    obtain ⟨⟨isCounter, isBound⟩, isBody⟩ := tidy
    exact twins_braced ((twins_countHead numbers isCounter isBound).append (.of_bare rfl))
      (Stmt.twins_allLines body isBody) (.of_bare rfl)
  | .loopOne test statement, tidy => by
    obtain ⟨isTest, isStatement⟩ := Bool.and_eq_true_iff.mp tidy
    exact .cons (((Expr.twins_alone numbers test isTest).between rfl rfl).append
      (Simple.twins_text numbers isStatement)) .nil
  | .loop test body, tidy => by
    obtain ⟨isTest, isBody⟩ := Bool.and_eq_true_iff.mp tidy
    exact twins_braced ((Expr.twins_alone numbers test isTest).between rfl rfl)
      (Stmt.twins_allLines body isBody) (.of_bare rfl)
  | .loopAfter body test, tidy => by
    obtain ⟨isTest, isBody⟩ := Bool.and_eq_true_iff.mp tidy
    exact twins_braced (.of_bare rfl) (Stmt.twins_allLines body isBody)
      ((Expr.twins_alone numbers test isTest).between rfl rfl)
  | .table name kind rows, tidy => by
    obtain ⟨isName, areRows⟩ := Bool.and_eq_true_iff.mp tidy
    exact twins_braced (twins_annotated kind (bare_append rfl isName) rfl rfl)
      (twins_rows numbers areRows) (.of_bare rfl)

/-- The same of several statements. -/
theorem Stmt.twins_allLines : ∀ body : List (Stmt α), Stmt.allTidy body = true →
    List.Forall₂ Twins (Stmt.allLines .typed body) (Stmt.allLines .untyped body)
  | [], _ => .nil
  | statement :: rest, tidy => by
    obtain ⟨own, others⟩ := Bool.and_eq_true_iff.mp tidy
    exact twins_append (Stmt.twins_lines statement own) (Stmt.twins_allLines rest others)

end

end Lines

/-! ### Functions -/

/-- The lines of a body are twins inside the function too. -/
theorem twins_bodyLine {line line' : String} (twins : Twins line line') :
    Twins (bodyLine line) (bodyLine line') := by
  unfold bodyLine
  by_cases empty : line = ""
  · obtain rfl := empty
    obtain rfl := twins.empty.mp rfl
    exact twins
  · rw [if_neg (mt String.isEmpty_iff.mp empty),
      if_neg (mt String.isEmpty_iff.mp (mt twins.empty.mpr empty))]
    exact (Twins.of_bare rfl).append twins

theorem twins_unlines {lines lines' : List String} (all : List.Forall₂ Twins lines lines') :
    Twins (unlines lines) (unlines lines') := by
  induction all with
  | nil => exact .of_bare rfl
  | cons first rest ih =>
    unfold unlines at ih ⊢
    rw [List.map_cons, List.map_cons, String.join_cons, String.join_cons]
    exact (first.append (.of_bare rfl)).append ih

/-- **The functions around the lines of a body in the two dialects are twins.** -/
theorem twins_wrapLines {lines lines' : List String} (all : List.Forall₂ Twins lines lines') :
    Twins (wrapLines .typed lines) (wrapLines .untyped lines') := by
  have isHeader : Twins (header .typed) (header .untyped) := twins_declared .number rfl rfl rfl rfl
  have areLines : List.Forall₂ Twins (lines.map bodyLine) (lines'.map bodyLine) := by
    rw [List.forall₂_map_left_iff, List.forall₂_map_right_iff]
    exact all.imp fun _ _ => twins_bodyLine
  exact twins_unlines (twins_append (twins_append (.cons isHeader .nil) areLines)
    (.cons (.of_bare rfl) .nil))

end Script

end Easing
