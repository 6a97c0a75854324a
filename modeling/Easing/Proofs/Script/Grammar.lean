/-
**The grammar of the reader.**

What is read, form by form: tokens of a form are read as its tree, whatever follows that cannot go
on with them. The forms of expressions are those of the language: what can have suffixes, operations
by their strength, and whole expressions. A reader has enough fuel with four for each token.

* `AfterOperand`, `AfterBinary`, `AfterExpr`, `AfterStmt`: what can follow.
* `ReadsPrimary`, `ReadsBinary`, `ReadsExpr`, `ReadsItems`: tokens as expressions.
* `ReadsBinary.operation`: on the left what binds as strongly, on the right what binds more strongly.
* `ReadsSimple`, `ReadsStmt`, `ReadsAll`: tokens as statements.
* `readFunction_of_tokens`: tokens as a function.
-/
import Easing.Proofs.Script.Reader

namespace Easing.Script

variable {α : Type}

/-! ### What can follow -/

/-- The name in front is not called. -/
def AfterPrimary (rest : List Token) : Prop := rest.head? ≠ some (.mark .openRound)

/-- The operand in front does not go on. -/
def AfterOperand (rest : List Token) : Prop :=
  ∀ token ∈ rest.head?, token ∉ [.mark .openRound, .mark .openSquare, .mark .dot]

/-- An operator that follows binds at most so strongly. -/
structure AfterBinary (strength : Nat) (rest : List Token) : Prop where
  operand : AfterOperand rest
  weaker : ∀ operator more, nextOperator? rest = some (operator, more) →
    operator.strength ≤ strength

/-- An expression ends before these tokens. -/
def AfterExpr (rest : List Token) : Prop :=
  ∃ mark ∈ [Mark.closeRound, .closeSquare, .comma, .semicolon, .colon], ∃ more,
    rest = .mark mark :: more

theorem AfterOperand.primary {rest : List Token} (after : AfterOperand rest) :
    AfterPrimary rest := fun called =>
  after _ called (by decide)

theorem AfterExpr.binary {rest : List Token} (after : AfterExpr rest) (strength : Nat) :
    AfterBinary strength rest := by
  obtain ⟨mark, member, more, rfl⟩ := after
  constructor
  · rintro _ ⟨⟩
    have apart : ∀ mark ∈ [Mark.closeRound, .closeSquare, .comma, .semicolon, .colon],
        Token.mark mark ∉ [Token.mark .openRound, .mark .openSquare, .mark .dot] := by decide
    exact apart mark member
  · intro operator later next
    have noOperator : ∀ mark ∈ [Mark.closeRound, .closeSquare, .comma, .semicolon, .colon],
        mark.operator? = none := by decide
    rw [nextOperator?, noOperator mark member] at next
    cases next

section Productions

variable [Neg α] {literal : List Char → Option α} {fuel least strength : Nat}
  {front front' rest : List Token} {expr : Expr α}

/-! ### Ends -/

theorem readSuffixes_end (after : AfterOperand rest) (expr : Expr α) :
    readSuffixes literal (fuel + 1) expr rest = some (expr, rest) := by
  cases rest with
  | nil => rfl
  | cons token rest =>
    have apart := after token rfl
    simp only [List.mem_cons, List.not_mem_nil, or_false, not_or] at apart
    rw [readSuffixes]
    · rintro more ⟨⟩
      exact apart.2.1 rfl
    · rintro property more ⟨⟩
      exact apart.2.2 rfl

theorem readOperations_end (after : AfterBinary strength rest) (above : strength < least)
    (expr : Expr α) : readOperations literal (fuel + 1) least expr rest = some (expr, rest) := by
  rw [readOperations]
  cases next : nextOperator? rest with
  | none => rfl
  | some found =>
    have weaker := after.weaker _ _ next
    dsimp only
    rw [if_neg (by omega)]

/-! ### Readings with a continuation -/

/-- The tokens are an operand that can have suffixes. -/
def ReadsPrimary (literal : List Char → Option α) (front : List Token) (expr : Expr α) : Prop :=
  ∀ fuel rest, 4 * front.length < fuel → AfterPrimary rest →
    ∃ left, fuel ≤ left + 4 * front.length ∧
      readOperand literal (fuel + 1) (front ++ rest) = readSuffixes literal left expr rest

/-- The tokens are an operation of a strength, or what binds more strongly. -/
def ReadsBinary (literal : List Char → Option α) (strength : Nat) (front : List Token)
    (expr : Expr α) : Prop :=
  ∀ fuel least rest, least ≤ strength → 4 * front.length + 2 < fuel → AfterBinary strength rest →
    ∃ left, fuel ≤ left + 4 * front.length + 1 ∧
      readBinary literal fuel least (front ++ rest) = readOperations literal left least expr rest

/-- The tokens are an expression. -/
def ReadsExpr (literal : List Char → Option α) (front : List Token) (expr : Expr α) : Prop :=
  ∀ fuel rest, 4 * front.length + 3 < fuel → AfterExpr rest →
    readExpr literal fuel (front ++ rest) = some (expr, rest)

/-- The tokens are expressions up to a closing mark. -/
def ReadsItems (literal : List Char → Option α) (closing : Mark) (front : List Token)
    (exprs : List (Expr α)) : Prop :=
  ∀ fuel rest, 4 * front.length + 4 < fuel →
    readItems literal fuel closing (front ++ .mark closing :: rest) = some (exprs, rest)

/-! ### Operands -/

/-- What is read as an operand is an operation of any strength. -/
theorem readsBinary_of_operand (strength : Nat)
    (reads : ∀ fuel rest, 4 * front.length < fuel → AfterOperand rest →
      readOperand literal (fuel + 1) (front ++ rest) = some (expr, rest)) :
    ReadsBinary literal strength front expr := by
  intro fuel least rest _ enough after
  obtain ⟨fuel, rfl⟩ : ∃ n, fuel = n + 2 := ⟨fuel - 2, by omega⟩
  refine ⟨fuel + 1, by omega, ?_⟩
  rw [readBinary, reads fuel rest (by omega) after.operand]

theorem ReadsPrimary.binary (reads : ReadsPrimary literal front expr) (strength : Nat) :
    ReadsBinary literal strength front expr := by
  refine readsBinary_of_operand strength fun fuel rest enough after => ?_
  obtain ⟨left, least, same⟩ := reads fuel rest enough after.primary
  obtain ⟨left, rfl⟩ : ∃ n, left = n + 1 := ⟨left - 1, by omega⟩
  rw [same, readSuffixes_end after]

theorem readsBinary_number {text : List Char} {a : α} (denotes : literal text = some a)
    (strength : Nat) : ReadsBinary literal strength [.number text] (.literal a : Expr α) := by
  refine readsBinary_of_operand strength fun fuel rest _ _ => ?_
  show (literal text).map (fun a => (Expr.literal a, rest)) = _
  rw [denotes]
  rfl

theorem readsBinary_minus {text : List Char} {a : α} (denotes : literal text = some a)
    (strength : Nat) :
    ReadsBinary literal strength [.mark .minus, .number text] (.literal (-a) : Expr α) := by
  refine readsBinary_of_operand strength fun fuel rest _ _ => ?_
  show (literal text).map (fun a => (Expr.literal (-a), rest)) = _
  rw [denotes]
  rfl

theorem readsBinary_incremented (name : String) (strength : Nat) :
    ReadsBinary literal strength [.mark .increment, .name name] (.incremented name : Expr α) :=
  readsBinary_of_operand strength fun _ _ _ _ => rfl

/-- A primary begins with the token. -/
def Token.opensPrimary : Token → Bool
  | .name _ | .keyword _ | .mark .openRound | .mark .openSquare => true
  | _ => false

theorem readOperand_of_primary {token : Token} (opens : token.opensPrimary = true)
    {tokens rest : List Token}
    (primary : readPrimary literal (fuel + 1) (token :: tokens) = some (expr, rest)) :
    readOperand literal (fuel + 2) (token :: tokens) =
      readSuffixes literal (fuel + 1) expr rest := by
  cases token with
  | mark mark =>
    cases mark with
    | openRound | openSquare => rw [readOperand, primary] <;> nofun
    | _ => cases opens
  | number | unknown => cases opens
  | keyword | name => rw [readOperand, primary] <;> nofun

/-- What is read as a primary can have suffixes. -/
theorem readsPrimary_of_primary {token : Token} (opens : token.opensPrimary = true)
    (reads : ∀ fuel rest, 4 * front.length + 3 < fuel + 1 → AfterPrimary rest →
      readPrimary literal (fuel + 1) (token :: (front ++ rest)) = some (expr, rest)) :
    ReadsPrimary literal (token :: front) expr := by
  intro fuel rest enough after
  rw [List.length_cons] at enough ⊢
  obtain ⟨fuel, rfl⟩ : ∃ n, fuel = n + 1 := ⟨fuel - 1, by omega⟩
  exact ⟨fuel + 1, by omega, readOperand_of_primary opens (reads fuel rest (by omega) after)⟩

theorem readsPrimary_name (name : String) :
    ReadsPrimary literal [.name name] (.variable name : Expr α) := by
  refine readsPrimary_of_primary rfl fun fuel rest _ after => ?_
  rw [List.nil_append, readPrimary]
  rintro more rfl
  exact after rfl

theorem readsBinary_nan (strength : Nat) :
    ReadsBinary literal strength [.keyword .nanWord] (.nan : Expr α) := by
  refine readsBinary_of_operand strength fun fuel rest enough after => ?_
  rw [List.length_singleton] at enough
  obtain ⟨fuel, rfl⟩ : ∃ n, fuel = n + 1 := ⟨fuel - 1, by omega⟩
  have primary : readPrimary literal (fuel + 1) (.keyword .nanWord :: rest) =
      some ((.nan : Expr α), rest) := by
    rw [readPrimary]
    rintro method more rfl
    exact after _ rfl (by decide)
  rw [List.singleton_append, readOperand_of_primary rfl primary, readSuffixes_end after]

theorem ReadsExpr.bracketed (reads : ReadsExpr literal front expr) :
    ReadsPrimary literal (.mark .openRound :: (front ++ [.mark .closeRound])) expr := by
  refine readsPrimary_of_primary rfl fun fuel rest enough _ => ?_
  rw [List.length_append, List.length_singleton] at enough
  rw [List.append_assoc, List.singleton_append, readPrimary,
    reads fuel _ (by omega) ⟨.closeRound, by decide, rest, rfl⟩]

theorem ReadsItems.call {exprs : List (Expr α)} (callee : String)
    (reads : ReadsItems literal .closeRound front exprs) :
    ReadsPrimary literal (.name callee :: .mark .openRound :: (front ++ [.mark .closeRound]))
      (.call callee exprs) := by
  refine readsPrimary_of_primary rfl fun fuel rest enough _ => ?_
  rw [List.length_cons, List.length_append, List.length_singleton] at enough
  rw [List.cons_append, List.append_assoc, List.singleton_append, readPrimary,
    reads fuel rest (by omega)]
  rfl

theorem ReadsItems.builtin {exprs : List (Expr α)} {object : Keyword} {method : String}
    {callee : Builtin} (known : builtin? object method = some callee)
    (reads : ReadsItems literal .closeRound front exprs) :
    ReadsPrimary literal (.keyword object :: .mark .dot :: .name method :: .mark .openRound ::
      (front ++ [.mark .closeRound])) (.builtin callee exprs) := by
  refine readsPrimary_of_primary rfl fun fuel rest enough _ => ?_
  simp only [List.length_cons, List.length_append, List.length_nil] at enough
  simp only [List.cons_append, List.append_assoc, List.nil_append]
  rw [readPrimary, known]
  dsimp only
  rw [reads fuel rest (by omega)]
  rfl

theorem ReadsItems.array {exprs : List (Expr α)}
    (reads : ReadsItems literal .closeSquare front exprs) :
    ReadsPrimary literal (.mark .openSquare :: (front ++ [.mark .closeSquare])) (.array exprs) := by
  refine readsPrimary_of_primary rfl fun fuel rest enough _ => ?_
  rw [List.length_append, List.length_singleton] at enough
  rw [List.append_assoc, List.singleton_append, readPrimary, reads fuel rest (by omega)]
  rfl

/-! ### Suffixes -/

theorem ReadsPrimary.item {place : Expr α} (isArray : ReadsPrimary literal front expr)
    (isPlace : ReadsExpr literal front' place) :
    ReadsPrimary literal (front ++ .mark .openSquare :: (front' ++ [.mark .closeSquare]))
      (.item expr place) := by
  intro fuel rest enough _
  simp only [List.length_append, List.length_cons, List.length_nil] at enough ⊢
  simp only [List.append_assoc, List.cons_append, List.nil_append]
  obtain ⟨left, least, same⟩ := isArray fuel
    (.mark .openSquare :: (front' ++ .mark .closeSquare :: rest)) (by omega) nofun
  obtain ⟨left, rfl⟩ : ∃ n, left = n + 1 := ⟨left - 1, by omega⟩
  refine ⟨left, by omega, ?_⟩
  rw [same, readSuffixes, isPlace left _ (by omega) ⟨.closeSquare, by decide, rest, rfl⟩]

theorem ReadsPrimary.size (isArray : ReadsPrimary literal front expr) :
    ReadsPrimary literal (front ++ [.mark .dot, .name "length"]) (.size expr) := by
  intro fuel rest enough _
  simp only [List.length_append, List.length_cons, List.length_nil] at enough ⊢
  simp only [List.append_assoc, List.cons_append, List.nil_append]
  obtain ⟨left, least, same⟩ := isArray fuel (.mark .dot :: .name "length" :: rest) (by omega) nofun
  obtain ⟨left, rfl⟩ : ∃ n, left = n + 1 := ⟨left - 1, by omega⟩
  refine ⟨left, by omega, ?_⟩
  rw [same, readSuffixes, if_pos rfl]

/-! ### Operations -/

theorem Mark.apart_of_operator {mark : Mark} {operator : Operator}
    (stands : mark.operator? = some operator) :
    Token.mark mark ∉ [.mark .openRound, .mark .openSquare, .mark .dot] := by
  intro member
  simp only [List.mem_cons, Token.mark.injEq, List.not_mem_nil, or_false] at member
  rcases member with rfl | rfl | rfl <;> cases stands

/-- **An operation**: on the left what binds as strongly, on the right what binds more strongly. -/
theorem ReadsBinary.operation {mark : Mark} {operator : Operator} {left right : Expr α}
    {strength strength' : Nat} (stands : mark.operator? = some operator)
    (isLeft : ReadsBinary literal strength front left) (atLeast : operator.strength ≤ strength)
    (isRight : ReadsBinary literal strength' front' right)
    (above : operator.strength + 1 ≤ strength') :
    ReadsBinary literal operator.strength (front ++ .mark mark :: front')
      (.binary operator left right) := by
  intro fuel least rest within enough after
  have next (more : List Token) : nextOperator? (.mark mark :: more) = some (operator, more) := by
    rw [nextOperator?, stands]
    rfl
  have afterLeft : AfterBinary strength (.mark mark :: (front' ++ rest)) := by
    constructor
    · rintro _ ⟨⟩
      exact Mark.apart_of_operator stands
    · intro found more same
      rw [next] at same
      cases same
      exact atLeast
  have afterRight : AfterBinary strength' rest :=
    ⟨after.operand, fun found more same => Nat.le_trans (after.weaker found more same) (by omega)⟩
  simp only [List.length_append, List.length_cons] at enough ⊢
  rw [List.append_assoc, List.cons_append]
  obtain ⟨fuel₁, some₁, same₁⟩ := isLeft fuel least _ (by omega) (by omega) afterLeft
  obtain ⟨fuel₁, rfl⟩ : ∃ n, fuel₁ = n + 1 := ⟨fuel₁ - 1, by omega⟩
  obtain ⟨fuel₂, some₂, same₂⟩ :=
    isRight fuel₁ (operator.strength + 1) rest above (by omega) afterRight
  obtain ⟨fuel₂, rfl⟩ : ∃ n, fuel₂ = n + 1 := ⟨fuel₂ - 1, by omega⟩
  refine ⟨fuel₁, by omega, ?_⟩
  rw [same₁, readOperations, next]
  dsimp only
  rw [if_pos within, same₂, readOperations_end after (Nat.lt_succ_self _)]

/-! ### Expressions -/

theorem ReadsBinary.whole (reads : ReadsBinary literal strength front expr)
    (positive : 1 ≤ strength) : ReadsExpr literal front expr := by
  intro fuel rest enough after
  obtain ⟨fuel, rfl⟩ : ∃ n, fuel = n + 1 := ⟨fuel - 1, by omega⟩
  obtain ⟨left, some, same⟩ := reads fuel 1 rest positive (by omega) (after.binary _)
  obtain ⟨left, rfl⟩ : ∃ n, left = n + 1 := ⟨left - 1, by omega⟩
  have ends : readOperations literal (left + 1) 1 expr rest = .some (expr, rest) :=
    readOperations_end (after.binary 0) Nat.zero_lt_one expr
  obtain ⟨mark, member, more, rfl⟩ := after
  rw [readExpr, same, ends]
  simp only [List.mem_cons, List.not_mem_nil, or_false] at member
  rcases member with rfl | rfl | rfl | rfl | rfl <;> rfl

/-- **A condition.** What is tested is an operation; the results are any expressions. -/
theorem ReadsBinary.choose {test yes no : Expr α} {third : List Token}
    (isTest : ReadsBinary literal strength front test) (positive : 1 ≤ strength)
    (isYes : ReadsExpr literal front' yes) (isNo : ReadsExpr literal third no) :
    ReadsExpr literal
      (front ++ .mark .question :: (front' ++ .mark .colon :: third)) (.choose test yes no) := by
  intro fuel rest enough after
  simp only [List.length_append, List.length_cons] at enough
  simp only [List.append_assoc, List.cons_append]
  obtain ⟨fuel, rfl⟩ : ∃ n, fuel = n + 1 := ⟨fuel - 1, by omega⟩
  have question (limit : Nat) (more : List Token) : AfterBinary limit (.mark .question :: more) := by
    refine ⟨?_, nofun⟩
    rintro _ ⟨⟩
    decide
  obtain ⟨left, some, same⟩ := isTest fuel 1 _ positive (by omega) (question _ _)
  obtain ⟨left, rfl⟩ : ∃ n, left = n + 1 := ⟨left - 1, by omega⟩
  have ends : readOperations literal (left + 1) 1 test
      (.mark .question :: (front' ++ .mark .colon :: (third ++ rest))) = _ :=
    readOperations_end (question 0 _) Nat.zero_lt_one test
  rw [readExpr, same, ends]
  dsimp only
  rw [isYes fuel _ (by omega) ⟨.colon, by decide, _, rfl⟩]
  dsimp only
  rw [isNo fuel rest (by omega) after]
  rfl

/-! ### Functions -/

/-- Names with commas between them. -/
def nameTokens : List String → List Token
  | [] => []
  | [name] => [.name name]
  | name :: rest => .name name :: .mark .comma :: nameTokens rest

/-- Parameters in parentheses. -/
def parameterTokens (names : List String) : List Token :=
  .mark .openRound :: (nameTokens names ++ [.mark .closeRound])

theorem readNames_tokens (name : String) (names : List String) :
    readNames (nameTokens (name :: names) ++ .mark .closeRound :: rest) =
      some (name :: names, rest) := by
  induction names generalizing name with
  | nil => rfl
  | cons next names ih =>
    have step : readNames (nameTokens (name :: next :: names) ++ .mark .closeRound :: rest) =
        (readNames (nameTokens (next :: names) ++ .mark .closeRound :: rest)).map
          fun front => (name :: front.1, front.2) := rfl
    rw [step, ih]
    rfl

theorem readParameters_tokens (names : List String) (rest : List Token) :
    readParameters (parameterTokens names ++ rest) = some (names, rest) := by
  rw [parameterTokens, List.cons_append, List.append_assoc, List.singleton_append]
  cases names with
  | nil => rfl
  | cons name names =>
    rw [readParameters, readNames_tokens]
    cases names <;> nofun

theorem readArrow_tokens (names : List String) (rest : List Token) :
    readArrow (parameterTokens names ++ .mark .arrow :: rest) = some (names, rest) := by
  rw [readArrow, readParameters_tokens]

/-- Parameters before an arrow are no operation, or one that an arrow follows. -/
theorem readBinary_parameters (literal : List Char → Option α) (fuel : Nat) (names : List String)
    (rest : List Token) :
    readBinary literal fuel 1 (parameterTokens names ++ .mark .arrow :: rest) = none ∨
      ∃ expr more, readBinary literal fuel 1 (parameterTokens names ++ .mark .arrow :: rest) =
        some (expr, .mark .arrow :: more) := by
  match names with
  | [] =>
    left
    rcases fuel with _ | _ | _ | _ | _ | _ | _ | fuel <;> rfl
  | [name] =>
    rcases fuel with _ | _ | _ | _ | _ | _ | _ | _ | _ | fuel
    all_goals first
      | exact .inl rfl
      | exact .inr ⟨.variable name, rest, rfl⟩
  | name :: next :: names =>
    left
    rcases fuel with _ | _ | _ | _ | _ | _ | _ | _ | fuel <;> rfl

/-- Parameters before an arrow are read with what follows the arrow. -/
theorem readExpr_arrow (names : List String) (front : List Token) :
    readExpr literal (fuel + 1) (parameterTokens names ++ .mark .arrow :: front) =
      (readExpr literal fuel front).map fun (body, rest) => (.function names body, rest) := by
  have arrow := readArrow_tokens names front
  rw [readExpr]
  rcases readBinary_parameters literal fuel names front with
    none | ⟨left, more, some⟩
  · rw [none]
    dsimp only
    rw [arrow]
  · rw [some]
    dsimp only
    rw [arrow]

theorem ReadsExpr.function (names : List String) (isBody : ReadsExpr literal front expr) :
    ReadsExpr literal (parameterTokens names ++ .mark .arrow :: front) (.function names expr) := by
  intro fuel rest enough after
  simp only [List.length_append, List.length_cons] at enough
  obtain ⟨fuel, rfl⟩ : ∃ n, fuel = n + 1 := ⟨fuel - 1, by omega⟩
  rw [List.append_assoc, List.cons_append, readExpr_arrow, isBody fuel rest (by omega) after]
  rfl

/-! ### What begins an expression -/

/-- An expression begins with the mark. -/
def Mark.opensExpr : Mark → Bool
  | .minus | .increment | .openRound | .openSquare => true
  | _ => false

theorem readExpr_mark {mark : Mark} (other : mark.opensExpr = false) (rest : List Token) :
    readExpr literal fuel (.mark mark :: rest) = none := by
  rcases fuel with _ | _ | _ | _ | fuel <;> cases mark <;> first | rfl | cases other

/-- What stands before an expression is not one of the other marks. -/
theorem ReadsExpr.head_ne (reads : ReadsExpr literal front expr) {mark : Mark}
    (other : mark.opensExpr = false) (rest : List Token) :
    (front ++ rest).head? ≠ some (.mark mark) := by
  have whole := reads (4 * front.length + 4) [.mark .semicolon] (Nat.lt_succ_self _)
    ⟨.semicolon, by decide, [], rfl⟩
  cases front with
  | nil =>
    rw [List.nil_append, readExpr_mark rfl] at whole
    cases whole
  | cons token front =>
    intro first
    cases first
    rw [List.cons_append, readExpr_mark other] at whole
    cases whole

/-! ### Items -/

theorem readsItems_nil (closing : Mark) : ReadsItems literal closing [] ([] : List (Expr α)) := by
  intro fuel rest enough
  obtain ⟨fuel, rfl⟩ : ∃ n, fuel = n + 1 := ⟨fuel - 1, by omega⟩
  rw [List.nil_append, readItems, List.head?_cons, if_pos rfl, List.tail_cons]

/-- The marks that items end with. -/
def closings : List Mark := [.closeRound, .closeSquare]

theorem ReadsExpr.items {closing : Mark} (member : closing ∈ closings)
    (reads : ReadsExpr literal front expr) : ReadsItems literal closing front [expr] := by
  intro fuel rest enough
  obtain ⟨fuel, rfl⟩ : ∃ n, fuel = n + 1 := ⟨fuel - 1, by omega⟩
  obtain ⟨other, ends, apart⟩ : closing.opensExpr = false ∧
      closing ∈ [Mark.closeRound, .closeSquare, .comma, .semicolon, .colon] ∧
      closing ≠ .comma := by
    revert closing
    decide
  rw [readItems, if_neg (reads.head_ne other _), reads fuel _ (by omega) ⟨closing, ends, rest, rfl⟩]
  dsimp only
  rw [if_neg apart, if_pos rfl]

theorem ReadsItems.cons {closing : Mark} {exprs : List (Expr α)} (member : closing ∈ closings)
    (first : ReadsExpr literal front expr) (others : ReadsItems literal closing front' exprs) :
    ReadsItems literal closing (front ++ .mark .comma :: front') (expr :: exprs) := by
  intro fuel rest enough
  simp only [List.length_append, List.length_cons] at enough
  obtain ⟨fuel, rfl⟩ : ∃ n, fuel = n + 1 := ⟨fuel - 1, by omega⟩
  have other : closing.opensExpr = false := by
    have all : ∀ closing ∈ closings, closing.opensExpr = false := by decide
    exact all closing member
  rw [List.append_assoc, List.cons_append, readItems, if_neg (first.head_ne other _),
    first fuel _ (by omega) ⟨.comma, by decide, _, rfl⟩]
  dsimp only
  rw [if_pos rfl, others fuel rest (by omega)]
  rfl

/-! ### Statements on one line -/

/-- The tokens are a statement on one line that declares nothing. -/
def ReadsSimple (literal : List Char → Option α) (front : List Token) (simple : Simple α) : Prop :=
  ∀ fuel rest, 4 * front.length ≤ fuel →
    readSimple literal fuel (front ++ rest) = some (simple, rest)

/-- An expression with a semicolon behind it. -/
theorem ReadsExpr.withSemicolon (reads : ReadsExpr literal front expr) {β : Type} {make : Expr α → β}
    (enough : 4 * (front ++ [Token.mark .semicolon]).length ≤ fuel) (rest : List Token) :
    withSemicolon make (readExpr literal fuel (front ++ [.mark .semicolon] ++ rest)) =
      some (make expr, rest) := by
  rw [List.length_append, List.length_singleton] at enough
  rw [List.append_assoc, List.singleton_append,
    reads fuel _ (by omega) ⟨.semicolon, by decide, rest, rfl⟩]
  rfl

namespace ReadsSimple

theorem leave :
    ReadsSimple literal [.keyword .breakWord, .mark .semicolon] (.leave : Simple α) :=
  fun _ _ _ => rfl

theorem increment (name : String) : ReadsSimple literal
    [.mark .increment, .name name, .mark .semicolon] (.increment name : Simple α) :=
  fun _ _ _ => rfl

theorem decrement (name : String) : ReadsSimple literal
    [.mark .decrement, .name name, .mark .semicolon] (.decrement name : Simple α) :=
  fun _ _ _ => rfl

theorem result (reads : ReadsExpr literal front expr) : ReadsSimple literal
    (.keyword .returnWord :: (front ++ [.mark .semicolon])) (.result expr) := by
  intro fuel rest enough
  simp only [List.length_cons] at enough
  exact reads.withSemicolon (by omega) rest

theorem assign (name : String) (reads : ReadsExpr literal front expr) : ReadsSimple literal
    (.name name :: .mark .becomes :: (front ++ [.mark .semicolon])) (.assign name expr) := by
  intro fuel rest enough
  simp only [List.length_cons] at enough
  exact reads.withSemicolon (by omega) rest

theorem subtract (name : String) (reads : ReadsExpr literal front expr) : ReadsSimple literal
    (.name name :: .mark .lessens :: (front ++ [.mark .semicolon])) (.subtract name expr) := by
  intro fuel rest enough
  simp only [List.length_cons] at enough
  exact reads.withSemicolon (by omega) rest

theorem push (array : String) (reads : ReadsExpr literal front expr) : ReadsSimple literal
    (.name array :: .mark .dot :: .name "push" :: .mark .openRound ::
      (front ++ [.mark .closeRound, .mark .semicolon])) (.push array expr) := by
  intro fuel rest enough
  simp only [List.length_cons, List.length_append, List.length_nil] at enough
  simp only [List.cons_append, List.append_assoc, List.nil_append]
  rw [readSimple, reads fuel _ (by omega) ⟨.closeRound, by decide, _, rfl⟩]
  dsimp only
  rw [if_pos rfl]
  rfl

end ReadsSimple

/-- The head of a loop that counts is read as its counter and its bound. -/
theorem readCount_tokens (counter : String) {bound : Expr α}
    (isBound : ReadsBinary literal strength front bound) (shift : 8 ≤ strength)
    (enough : 4 * front.length + 2 < fuel) (rest : List Token) :
    readCount literal fuel (.keyword .letWord :: .name counter :: .mark .becomes ::
      .number ['0'] :: .mark .semicolon :: .name counter :: .mark .less ::
        (front ++ .mark .semicolon :: .mark .increment :: .name counter :: .mark .closeRound ::
          rest)) = some ((counter, bound), rest) := by
  have after : AfterExpr (.mark .semicolon :: .mark .increment :: .name counter ::
      .mark .closeRound :: rest) := ⟨.semicolon, by decide, _, rfl⟩
  obtain ⟨left, some, same⟩ := isBound fuel 8 _ shift enough (after.binary _)
  obtain ⟨left, rfl⟩ : ∃ n, left = n + 1 := ⟨left - 1, by omega⟩
  rw [readCount, show Operator.less.strength + 1 = 8 from rfl, same,
    readOperations_end (after.binary 0) (by decide)]
  dsimp only
  rw [if_pos ⟨rfl, rfl, rfl⟩]

/-! ### Statements -/

/-- No statement begins with a closing brace, and none with an `else` of another one. -/
def AfterStmt (rest : List Token) : Prop := rest.head? ≠ some (.keyword .elseWord)

/-- The tokens are a statement. -/
def ReadsStmt (literal : List Char → Option α) (front : List Token) (statement : Stmt α) : Prop :=
  ∀ fuel rest, 4 * front.length + 2 < fuel → AfterStmt rest →
    readStmt literal fuel (front ++ rest) = some (statement, rest)

/-- The tokens are statements, one after another. -/
inductive ReadsAll (literal : List Char → Option α) : List Token → List (Stmt α) → Prop where
  | nil : ReadsAll literal [] []
  | cons {front back : List Token} {statement : Stmt α} {body : List (Stmt α)}
      (first : ReadsStmt literal front statement) (others : ReadsAll literal back body) :
      ReadsAll literal (front ++ back) (statement :: body)

theorem ReadsAll.append {back : List Token} {body body' : List (Stmt α)}
    (first : ReadsAll literal front body) (others : ReadsAll literal back body') :
    ReadsAll literal (front ++ back) (body ++ body') := by
  induction first with
  | nil => exact others
  | cons first _ ih =>
    rw [List.append_assoc]
    exact .cons first ih

theorem ReadsStmt.all {statement : Stmt α} (reads : ReadsStmt literal front statement) :
    ReadsAll literal front [statement] := by
  have one := ReadsAll.cons reads .nil
  rwa [List.append_nil] at one

/-- A statement does not begin with what ends a block or a test. -/
theorem ReadsStmt.head_ne {statement : Stmt α} (reads : ReadsStmt literal front statement)
    (rest : List Token) : (front ++ rest).head? ≠ some (.mark .closeCurly) ∧
      (front ++ rest).head? ≠ some (.keyword .elseWord) := by
  have whole := reads (4 * front.length + 3) [] (Nat.lt_succ_self _) nofun
  rw [List.append_nil] at whole
  cases front with
  | nil => cases whole
  | cons token front => constructor <;> (rintro ⟨⟩; cases whole)

/-- Statements are read up to a closing brace. -/
theorem ReadsAll.block {body : List (Stmt α)} (reads : ReadsAll literal front body)
    (enough : 4 * front.length + 3 < fuel) (rest : List Token) :
    readBlock literal fuel (front ++ .mark .closeCurly :: rest) = some (body, rest) := by
  induction reads generalizing fuel with
  | nil =>
    obtain ⟨fuel, rfl⟩ : ∃ n, fuel = n + 1 := ⟨fuel - 1, by omega⟩
    rw [List.nil_append, readBlock, List.head?_cons, if_pos rfl, List.tail_cons]
  | @cons front back statement body first others ih =>
    obtain ⟨fuel, rfl⟩ : ∃ n, fuel = n + 1 := ⟨fuel - 1, by omega⟩
    rw [List.length_append] at enough
    have after : AfterStmt (back ++ .mark .closeCurly :: rest) := by
      cases others with
      | nil => exact nofun
      | cons next more =>
        rw [List.append_assoc]
        exact (next.head_ne _).2
    have some : 0 < front.length := by
      refine List.length_pos_iff.mpr ?_
      rintro rfl
      exact (first.head_ne [.mark .closeCurly]).1 rfl
    rw [List.append_assoc, readBlock, if_neg (first.head_ne _).1, first fuel _ (by omega) after]
    dsimp only
    rw [ih (by omega)]
    rfl

/-! ### Statements of several parts -/

/-- A statement on one line that declares nothing begins with the token. -/
def Token.opensSimple : Token → Bool
  | .name _ | .keyword .returnWord | .keyword .breakWord => true
  | .mark .increment | .mark .decrement => true
  | _ => false

/-- What is read as a statement on one line begins as one. -/
theorem exists_opensSimple {simple : Simple α}
    (reads : readSimple literal fuel front = some (simple, rest)) :
    ∃ token more, front = token :: more ∧ token.opensSimple = true := by
  cases front with
  | nil => cases reads
  | cons token front =>
    refine ⟨token, front, rfl, ?_⟩
    cases token with
    | name => rfl
    | keyword word => cases word <;> first | rfl | cases reads
    | mark mark => cases mark <;> first | rfl | cases reads
    | _ => cases reads

namespace ReadsStmt

theorem simple {simple : Simple α} (reads : ReadsSimple literal front simple) :
    ReadsStmt literal front (.simple simple) := by
  intro fuel rest enough _
  obtain ⟨fuel, rfl⟩ : ∃ n, fuel = n + 1 := ⟨fuel - 1, by omega⟩
  have own := reads fuel rest (by omega)
  obtain ⟨token, more, same, opens⟩ := exists_opensSimple own
  rw [same] at own ⊢
  have dispatched : readStmt literal (fuel + 1) (token :: more) =
      (readSimple literal fuel (token :: more)).map
        fun front => (.simple front.1, front.2) := by
    cases token with
    | name => rfl
    | keyword word => cases word <;> first | rfl | cases opens
    | mark mark => cases mark <;> rfl
    | _ => cases opens
  rw [dispatched, own]
  rfl

theorem constant (name : String) (reads : ReadsExpr literal front expr) : ReadsStmt literal
    (.keyword .constWord :: .name name :: .mark .becomes :: (front ++ [.mark .semicolon]))
      (.simple (.constant name none expr)) := by
  intro fuel rest enough _
  simp only [List.length_cons] at enough
  obtain ⟨fuel, rfl⟩ : ∃ n, fuel = n + 1 := ⟨fuel - 1, by omega⟩
  rw [List.cons_append, List.cons_append, List.cons_append, readStmt,
    reads.withSemicolon (by omega) rest]

theorem constantPair (first second : String) (reads : ReadsExpr literal front expr) :
    ReadsStmt literal (.keyword .constWord :: .mark .openSquare :: .name first ::
      .mark .comma :: .name second :: .mark .closeSquare :: .mark .becomes ::
        (front ++ [.mark .semicolon])) (.simple (.constantPair first second expr)) := by
  intro fuel rest enough _
  simp only [List.length_cons] at enough
  obtain ⟨fuel, rfl⟩ : ∃ n, fuel = n + 1 := ⟨fuel - 1, by omega⟩
  exact reads.withSemicolon (by omega) rest

theorem «variable» (name : String) (reads : ReadsExpr literal front expr) : ReadsStmt literal
    (.keyword .letWord :: .name name :: .mark .becomes :: (front ++ [.mark .semicolon]))
      (.simple (.variable name expr)) := by
  intro fuel rest enough _
  simp only [List.length_cons] at enough
  obtain ⟨fuel, rfl⟩ : ∃ n, fuel = n + 1 := ⟨fuel - 1, by omega⟩
  exact reads.withSemicolon (by omega) rest

theorem localFunction (name : String) (parameters : List String)
    {body : List (Stmt α)} (areBody : ReadsAll literal front body) :
    ReadsStmt literal (.keyword .constWord :: .name name :: .mark .becomes ::
      (parameterTokens parameters ++ .mark .arrow :: .mark .openCurly ::
        (front ++ [.mark .closeCurly, .mark .semicolon]))) (.localFunction name parameters body) := by
  intro fuel rest enough _
  simp only [List.length_cons, List.length_append, List.length_nil] at enough
  simp only [List.cons_append, List.append_assoc, List.nil_append]
  obtain ⟨fuel, rfl⟩ : ∃ n, fuel = n + 2 := ⟨fuel - 2, by omega⟩
  rw [readStmt, readExpr_arrow, readExpr_mark rfl]
  dsimp only [Option.map_none, withSemicolon]
  rw [readArrow_tokens]
  dsimp only
  rw [areBody.block (by omega)]

theorem function (name : String) (parameters : List String)
    {body : List (Stmt α)} (areBody : ReadsAll literal front body) :
    ReadsStmt literal (.keyword .functionWord :: .name name ::
      (parameterTokens parameters ++ .mark .openCurly :: (front ++ [.mark .closeCurly])))
      (.function name parameters .number body) := by
  intro fuel rest enough _
  simp only [List.length_cons, List.length_append, List.length_nil] at enough
  simp only [List.cons_append, List.append_assoc, List.nil_append]
  obtain ⟨fuel, rfl⟩ : ∃ n, fuel = n + 1 := ⟨fuel - 1, by omega⟩
  rw [readStmt, readParameters_tokens]
  dsimp only
  rw [areBody.block (by omega)]
  rfl

end ReadsStmt

/-- The tokens are what stands under a test or in a loop. -/
def ReadsUnder (literal : List Char → Option α) (front : List Token)
    (block : List (Stmt α) → Stmt α) (one : Simple α → Stmt α) (statement : Stmt α) : Prop :=
  ∀ fuel rest, 4 * front.length < fuel →
    readUnder literal fuel block one (front ++ rest) = some (statement, rest)

theorem ReadsSimple.under {simple : Simple α} (reads : ReadsSimple literal front simple)
    (block : List (Stmt α) → Stmt α) (one : Simple α → Stmt α) :
    ReadsUnder literal front block one (one simple) := by
  intro fuel rest enough
  obtain ⟨fuel, rfl⟩ : ∃ n, fuel = n + 1 := ⟨fuel - 1, by omega⟩
  have own := reads fuel rest (by omega)
  have bare : (front ++ rest).head? ≠ some (.mark .openCurly) := by
    obtain ⟨token, more, same, opens⟩ := exists_opensSimple own
    rw [same]
    rintro ⟨⟩
    cases opens
  rw [readUnder, if_neg bare, own]
  rfl

theorem ReadsAll.under {body : List (Stmt α)} (reads : ReadsAll literal front body)
    (block : List (Stmt α) → Stmt α) (one : Simple α → Stmt α) :
    ReadsUnder literal (.mark .openCurly :: (front ++ [.mark .closeCurly])) block one
      (block body) := by
  intro fuel rest enough
  simp only [List.length_cons, List.length_append, List.length_nil] at enough
  obtain ⟨fuel, rfl⟩ : ∃ n, fuel = n + 1 := ⟨fuel - 1, by omega⟩
  rw [List.cons_append, List.append_assoc, List.singleton_append, readUnder, List.head?_cons,
    if_pos rfl, List.tail_cons, reads.block (by omega)]
  rfl

namespace ReadsStmt

variable {test bound : Expr α} {statement : Stmt α}

theorem guarded {simple : Simple α} (isTest : ReadsExpr literal front test)
    (isSimple : ReadsSimple literal front' simple) :
    ReadsStmt literal (.keyword .ifWord :: .mark .openRound ::
      (front ++ .mark .closeRound :: front')) (.guarded test simple) := by
  intro fuel rest enough after
  simp only [List.length_cons, List.length_append] at enough
  simp only [List.cons_append, List.append_assoc]
  obtain ⟨fuel, rfl⟩ : ∃ n, fuel = n + 1 := ⟨fuel - 1, by omega⟩
  rw [readStmt, isTest fuel _ (by omega) ⟨.closeRound, by decide, _, rfl⟩]
  dsimp only
  rw [isSimple.under _ _ fuel rest (by omega)]
  cases rest with
  | nil => rfl
  | cons token rest =>
    split
    next same =>
      cases same
      exact absurd rfl after
    next => rfl

theorem either {yes no : Simple α} {third : List Token} (isTest : ReadsExpr literal front test)
    (isYes : ReadsSimple literal front' yes) (isNo : ReadsSimple literal third no) :
    ReadsStmt literal (.keyword .ifWord :: .mark .openRound ::
      (front ++ .mark .closeRound :: (front' ++ .keyword .elseWord :: third)))
      (.either test yes no) := by
  intro fuel rest enough _
  simp only [List.length_cons, List.length_append] at enough
  simp only [List.cons_append, List.append_assoc]
  obtain ⟨fuel, rfl⟩ : ∃ n, fuel = n + 1 := ⟨fuel - 1, by omega⟩
  rw [readStmt, isTest fuel _ (by omega) ⟨.closeRound, by decide, _, rfl⟩]
  dsimp only
  rw [isYes.under _ _ fuel _ (by omega)]
  dsimp only
  rw [isNo fuel rest (by omega)]
  rfl

theorem block {body : List (Stmt α)} (isTest : ReadsExpr literal front test)
    (areBody : ReadsAll literal front' body) :
    ReadsStmt literal (.keyword .ifWord :: .mark .openRound ::
      (front ++ .mark .closeRound :: .mark .openCurly :: (front' ++ [.mark .closeCurly])))
      (.block test body) := by
  intro fuel rest enough _
  simp only [List.length_cons, List.length_append, List.length_nil] at enough
  simp only [List.cons_append, List.append_assoc, List.nil_append]
  obtain ⟨fuel, rfl⟩ : ∃ n, fuel = n + 1 := ⟨fuel - 1, by omega⟩
  have under := areBody.under (.block test) (.guarded test) fuel rest
    (by simp only [List.length_cons, List.length_append, List.length_nil]; omega)
  rw [List.cons_append, List.append_assoc, List.singleton_append] at under
  rw [readStmt, isTest fuel _ (by omega) ⟨.closeRound, by decide, _, rfl⟩]
  dsimp only
  rw [under]

/-- A loop as long as a test holds. -/
theorem while_ (isTest : ReadsExpr literal front test)
    (isUnder : ReadsUnder literal front' (.loop test) (.loopOne test) statement) :
    ReadsStmt literal (.keyword .whileWord :: .mark .openRound ::
      (front ++ .mark .closeRound :: front')) statement := by
  intro fuel rest enough _
  simp only [List.length_cons, List.length_append] at enough
  simp only [List.cons_append, List.append_assoc]
  obtain ⟨fuel, rfl⟩ : ∃ n, fuel = n + 1 := ⟨fuel - 1, by omega⟩
  rw [readStmt, isTest fuel _ (by omega) ⟨.closeRound, by decide, _, rfl⟩]
  exact isUnder fuel rest (by omega)

theorem loopAfter {body : List (Stmt α)} (areBody : ReadsAll literal front body)
    (isTest : ReadsExpr literal front' test) :
    ReadsStmt literal (.keyword .doWord :: .mark .openCurly :: (front ++ .mark .closeCurly ::
      .keyword .whileWord :: .mark .openRound ::
        (front' ++ [.mark .closeRound, .mark .semicolon]))) (.loopAfter body test) := by
  intro fuel rest enough _
  simp only [List.length_cons, List.length_append, List.length_nil] at enough
  simp only [List.cons_append, List.append_assoc, List.nil_append]
  obtain ⟨fuel, rfl⟩ : ∃ n, fuel = n + 1 := ⟨fuel - 1, by omega⟩
  rw [readStmt, areBody.block (by omega)]
  dsimp only
  rw [isTest fuel _ (by omega) ⟨.closeRound, by decide, _, rfl⟩]
  rfl

/-- A loop that counts from zero. -/
theorem counting (counter : String) (isBound : ReadsBinary literal strength front bound)
    (shift : 8 ≤ strength)
    (isUnder : ReadsUnder literal front' (.count counter bound) (.countOne counter bound)
      statement) :
    ReadsStmt literal (.keyword .forWord :: .mark .openRound :: .keyword .letWord ::
      .name counter :: .mark .becomes :: .number ['0'] :: .mark .semicolon :: .name counter ::
        .mark .less :: (front ++ .mark .semicolon :: .mark .increment :: .name counter ::
          .mark .closeRound :: front')) statement := by
  intro fuel rest enough _
  simp only [List.length_cons, List.length_append] at enough
  simp only [List.cons_append, List.append_assoc]
  obtain ⟨fuel, rfl⟩ : ∃ n, fuel = n + 1 := ⟨fuel - 1, by omega⟩
  rw [readStmt, readCount_tokens counter isBound shift (by omega)]
  exact isUnder fuel rest (by omega)

end ReadsStmt

/-! ### Functions -/

/-- A text is read as a function when its tokens are those of one. -/
theorem readFunction_of_tokens {text name : String} {parameters : List String}
    {body : List (Stmt α)} (isText : tokens text = .keyword .functionWord :: .name name ::
      (parameterTokens parameters ++ .mark .openCurly :: (front ++ [.mark .closeCurly])))
    (areBody : ReadsAll literal front body) :
    readFunction literal text = some ⟨name, parameters, body⟩ := by
  rw [readFunction, isText]
  dsimp only
  rw [readParameters_tokens]
  dsimp only
  rw [areBody.block (by rw [List.length_append]; omega)]

end Productions

end Easing.Script
