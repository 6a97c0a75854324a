/-
**Rules for running scripts.**

One rule for each form of expression and statement, in the cases that a script runs into. An
expression mostly leaves the state as it is (`Yields`), and a function of numbers mostly gives a
number and leaves the arrays as they are (`Gives`).

* `Counting`: what is needed of small whole numbers.
* `Yields`: the value of an expression; `Yields.add` and so on.
* `Gives`, `Offers`: functions of numbers, and their names.
* `exec_constant` and so on: single statements; `execAll_next`, `execAll_returned`: the first of
  several.
* `repeatWhile_count`: a loop through given states.
-/
import Easing.Proofs.Script.Execution
import Easing.Script.Solver

set_option linter.unusedSectionVars false

namespace Easing.Script

variable {α : Type} [Scalar α]

/-- Small whole numbers and the constants of the solver are written with digits, and small whole
numbers are counted and compared exactly. -/
class Counting (α : Type) [Scalar α] : Prop where
  isFinite_whole : ∀ n : Nat, n ≤ 11 → Scalar.isFinite (n : α) = true
  isFinite_newtonSlope : Scalar.isFinite (UnitCubic.newtonSlope : α) = true
  isFinite_bisectTolerance : Scalar.isFinite (UnitCubic.bisectTolerance : α) = true
  succ : ∀ n : Nat, n ≤ 10 → (n : α) + 1 = ((n + 1 : Nat) : α)
  pred : ∀ n : Nat, n ≤ 10 → ((n + 1 : Nat) : α) - 1 = (n : α)
  beq : ∀ m : Nat, m ≤ 11 → ∀ n : Nat, n ≤ 11 → ((m : α) == (n : α)) = (m == n)
  lt : ∀ m : Nat, m ≤ 11 → ∀ n : Nat, n ≤ 11 → ((m : α) < (n : α) ↔ m < n)
  /-- The unit interval has a width. -/
  unit : ((1 : α) - 0 == 0) = false

/-- The names in sight of a function. -/
abbrev Scope (α : Type) := List (String × Value α)

/-! ### Expressions -/

/-- An expression has a value, and nothing changes. -/
def Yields (apply : Apply α) (state : State α) (expr : Expr α) (value : Value α) : Prop :=
  eval apply expr state = some (value, state)

section Expressions

variable {apply : Apply α} {state : State α} {left right test yes no : Expr α} {a b : α}

theorem yields_literal (finite : Scalar.isFinite a = true) :
    Yields apply state (.literal a) (.number a) := by
  unfold Yields
  rw [eval_literal, if_pos finite]

theorem yields_whole [Counting α] {n : Nat} (small : n ≤ 11) :
    Yields apply state (whole n) (.number (n : α)) :=
  yields_literal (Counting.isFinite_whole n small)

theorem yields_var {name : String} {value : Value α} (found : state.find? name = some value) :
    Yields apply state (var name) value := by
  unfold Yields var
  rw [eval_variable, found]
  rfl

theorem Yields.binary {operator : Operator} {v w result : Value α}
    (first : Yields apply state left v) (second : Yields apply state right w)
    (undecided : operator.decides v = false) (applied : operator.apply v w = some result) :
    Yields apply state (.binary operator left right) result := by
  unfold Yields at *
  rw [eval_binary, first, Option.bind_some]
  dsimp only
  rw [undecided, if_neg Bool.false_ne_true, second, Option.bind_some, applied]
  rfl

theorem Yields.add (first : Yields apply state left (.number a))
    (second : Yields apply state right (.number b)) :
    Yields apply state (add left right) (.number (a + b)) := first.binary second rfl rfl

theorem Yields.sub (first : Yields apply state left (.number a))
    (second : Yields apply state right (.number b)) :
    Yields apply state (sub left right) (.number (a - b)) := first.binary second rfl rfl

theorem Yields.mul (first : Yields apply state left (.number a))
    (second : Yields apply state right (.number b)) :
    Yields apply state (mul left right) (.number (a * b)) := first.binary second rfl rfl

theorem Yields.div (first : Yields apply state left (.number a))
    (second : Yields apply state right (.number b)) :
    Yields apply state (div left right) (.number (a / b)) := first.binary second rfl rfl

/-- Both tests, the second one only where the first holds. -/
theorem Yields.and {first second : Bool} (isFirst : Yields apply state left (.truth first))
    (isSecond : first = true → Yields apply state right (.truth second)) :
    Yields apply state (.binary .and left right) (.truth (first && second)) := by
  cases first with
  | true => exact isFirst.binary (isSecond rfl) rfl rfl
  | false =>
    unfold Yields at *
    rw [eval_binary, isFirst]
    rfl

/-- Either test, the second one only where the first fails. -/
theorem Yields.or {first second : Bool} (isFirst : Yields apply state left (.truth first))
    (isSecond : first = false → Yields apply state right (.truth second)) :
    Yields apply state (.binary .or left right) (.truth (first || second)) := by
  cases first with
  | false => exact isFirst.binary (isSecond rfl) rfl rfl
  | true =>
    unfold Yields at *
    rw [eval_binary, isFirst]
    rfl

/-- One of two numbers, each one computed only when it is taken. -/
theorem Yields.choose {holds : Bool} (isTest : Yields apply state test (.truth holds))
    (isYes : holds = true → Yields apply state yes (.number a))
    (isNo : holds = false → Yields apply state no (.number b)) :
    Yields apply state (.choose test yes no) (.number (if holds then a else b)) := by
  unfold Yields at *
  rw [eval_choose, isTest]
  cases holds with
  | true => exact isYes rfl
  | false => exact isNo rfl

/-- An entry of an array, at a small index. -/
theorem Yields.item [Counting α] {array index : Expr α} {address n : Nat}
    {entries : List (Value α)} {value : Value α} (isArray : Yields apply state array (.list address))
    (isIndex : Yields apply state index (.number (n : α)))
    (stored : state.heap[address]? = some entries) (short : entries.length ≤ 11)
    (found : entries[n]? = some value) : Yields apply state (.item array index) value := by
  have within : n < entries.length := (List.getElem?_eq_some_iff.mp found).1
  have entry : entryAt entries (n : α) = some value := by
    have place : ((List.range entries.length).find? fun (i : Nat) => (i : α) == (n : α)) =
        some n := by
      rw [List.find?_range_eq_some]
      refine ⟨?_, List.mem_range.mpr within, fun i before => ?_⟩
      · rw [Counting.beq (α := α) n (by omega) n (by omega)]
        exact beq_self_eq_true n
      · rw [Counting.beq (α := α) i (by omega) n (by omega), beq_eq_false_iff_ne.mpr (by omega)]
        rfl
    unfold entryAt
    rw [place]
    exact found
  unfold Yields at *
  rw [eval_item, isArray]
  dsimp only
  rw [isIndex]
  dsimp only
  rw [stored, Option.bind_some, entry]
  rfl

theorem yields_function {scope : Scope α} {heap : Heap α} {parameters : List String}
    {body : Expr α} : Yields apply ⟨scope, [], heap⟩ (.function parameters body)
      (.closure scope parameters (.expr body)) := rfl

theorem Yields.cons {first : Expr α} {rest : List (Expr α)} {value : Value α}
    {values : List (Value α)} (head : Yields apply state first value)
    (tail : evalAll apply rest state = some (values, state)) :
    evalAll apply (first :: rest) state = some (value :: values, state) := by
  unfold Yields at head
  rw [evalAll_cons, head, Option.bind_some]
  dsimp only
  rw [tail]
  rfl

theorem holds_of_yields {holds : Bool} (isTest : Yields apply state test (.truth holds)) :
    Script.holds apply test state = some (holds, state) := by
  unfold Yields at isTest
  unfold Script.holds
  rw [isTest]

end Expressions

/-! ### Names in sight -/

/-- Names have the same values in two states. -/
def Agrees (names : List String) (state other : State α) : Prop :=
  ∀ name ∈ names, other.find? name = state.find? name

section Sight

variable {names : List String} {scope locals : Scope α} {heap : Heap α} {name : String}
  {value : Value α} {state other third : State α}

theorem Agrees.trans (first : Agrees names state other) (second : Agrees names other third) :
    Agrees names state third :=
  fun name member => (second name member).trans (first name member)

/-- A name that is not among others hides none of them. -/
theorem lookup_of_absent (absent : name ∉ names) {own : String} (member : own ∈ names) :
    List.lookup own ((name, value) :: scope) = List.lookup own scope := by
  have differs : (own == name) = false := by
    rw [beq_eq_false_iff_ne]
    rintro rfl
    exact absent member
  rw [List.lookup_cons, differs]

theorem agrees_constant (absent : name ∉ names) :
    Agrees names ⟨scope, locals, heap⟩ ⟨(name, value) :: scope, locals, heap⟩ := by
  intro own member
  unfold State.find?
  rw [lookup_of_absent absent member]

theorem agrees_variable (absent : name ∉ names) :
    Agrees names ⟨scope, locals, heap⟩ ⟨scope, (name, value) :: locals, heap⟩ := by
  intro own member
  unfold State.find?
  rw [lookup_of_absent absent member]

end Sight

/-! ### Functions of numbers -/

/-- From some depth of calls on, a function gives a number for numbers, and changes no array. -/
def Gives (depth : Nat) (heap : Heap α) (function : Value α) (arguments : List α) (result : α) :
    Prop :=
  ∀ m, depth ≤ m → call m function (arguments.map .number) heap = some (.number result, heap)

/-- A name stands for a function that gives this, whatever the arrays. -/
def Offers (state : State α) (name : String) (depth : Nat) (arguments : List α) (result : α) :
    Prop :=
  ∃ function, state.find? name = some function ∧
    ∀ heap, Gives depth heap function arguments result

section Functions

variable {scope : Scope α} {heap : Heap α} {state other : State α} {depth m : Nat}
  {name : String}

/-- What a function does once it is called. -/
theorem call_closure {parameters : List String} {code : Code α} {arguments : List (Value α)}
    (length : arguments.length = parameters.length)
    (named : code.wellNamed parameters = true) :
    call (m + 1) (.closure scope parameters code) arguments heap =
      code.run (call m) m ⟨parameters.zip arguments ++ scope, [], heap⟩ := if_pos ⟨length, named⟩

/-- A function given by statements, and what these return. -/
theorem call_returned {parameters : List String} {body : List (Stmt α)}
    {arguments : List (Value α)} {value : Value α} {last : State α}
    (length : arguments.length = parameters.length) (named : wellNamed parameters body = true)
    (returns : execAll (call m) m body ⟨parameters.zip arguments ++ scope, [], heap⟩ =
      some (.returned value, last)) :
    call (m + 1) (.closure scope parameters (.block body)) arguments heap =
      some (value, last.heap) := by
  have named : Code.wellNamed parameters (.block body) = true := named
  rw [call_closure length named, Code.run, returns]

theorem Gives.of_expr {parameters : List String} {body : Expr α} {arguments : List α} {result : α}
    (length : arguments.length = parameters.length) (once : parameters.Nodup)
    (value : ∀ m, depth ≤ m →
      Yields (call m) ⟨parameters.zip (arguments.map .number) ++ scope, [], heap⟩ body
        (.number result)) :
    Gives (depth + 1) heap (.closure scope parameters (.expr body)) arguments result := by
  intro m deep
  obtain ⟨m, rfl⟩ : ∃ before, m = before + 1 := Nat.exists_eq_succ_of_ne_zero (by omega)
  have named : Code.wellNamed parameters (.expr body) = true := decide_eq_true once
  rw [call_closure (by rwa [List.length_map]) named, Code.run]
  have inner := value m (by omega)
  unfold Yields at inner
  rw [inner]
  rfl

/-- A function given by statements gives what these return. -/
theorem Gives.of_block {parameters : List String} {body : List (Stmt α)} {arguments : List α}
    {result : α} (length : arguments.length = parameters.length)
    (named : wellNamed parameters body = true)
    (returns : ∀ m, depth ≤ m → ∃ last, execAll (call m) m body
      ⟨parameters.zip (arguments.map .number) ++ scope, [], heap⟩ =
        some (.returned (.number result), last) ∧ last.heap = heap) :
    Gives (depth + 1) heap (.closure scope parameters (.block body)) arguments result := by
  intro m deep
  obtain ⟨m, rfl⟩ : ∃ before, m = before + 1 := Nat.exists_eq_succ_of_ne_zero (by omega)
  obtain ⟨last, isResult, same⟩ := returns m (by omega)
  rw [call_returned (by rwa [List.length_map]) named isResult, same]

/-- A call of a function that is in sight. -/
theorem Yields.call {function : Value α} {arguments : List (Expr α)} {values : List α} {result : α}
    (found : state.find? name = some function)
    (gives : Gives depth state.heap function values result) (deep : depth ≤ m)
    (given : evalAll (Script.call m) arguments state = some (values.map .number, state)) :
    Yields (Script.call m) state (.call name arguments) (.number result) := by
  unfold Yields
  rw [eval_call, found, Option.bind_some, given, Option.bind_some]
  dsimp only
  rw [gives m deep]
  rfl

theorem Offers.yields {arguments : List (Expr α)} {values : List α} {result : α}
    (offers : Offers state name depth values result) (deep : depth ≤ m)
    (given : evalAll (Script.call m) arguments state = some (values.map .number, state)) :
    Yields (Script.call m) state (.call name arguments) (.number result) := by
  obtain ⟨function, found, gives⟩ := offers
  exact Yields.call found (gives state.heap) deep given

theorem Offers.of_agrees {names : List String} {arguments : List α} {result : α}
    (offers : Offers state name depth arguments result) (agrees : Agrees names state other)
    (member : name ∈ names) : Offers other name depth arguments result := by
  obtain ⟨function, found, gives⟩ := offers
  exact ⟨function, (agrees name member).trans found, gives⟩

end Functions

/-! ### Statements -/

section Statements

variable {apply : Apply α} {rounds : Nat} {state state' : State α} {scope locals : Scope α}
  {heap : Heap α} {name : String} {value : Expr α} {v : Value α} {statement : Stmt α}
  {rest : List (Stmt α)}

theorem execAll_next (first : exec apply rounds statement state = some (.next, state')) :
    execAll apply rounds (statement :: rest) state = execAll apply rounds rest state' := by
  rw [execAll_cons, first]

theorem execAll_returned (first : exec apply rounds statement state = some (.returned v, state')) :
    execAll apply rounds (statement :: rest) state = some (.returned v, state') := by
  rw [execAll_cons, first]

theorem exec_constant {kind : Option Kind} (isValue : Yields apply ⟨scope, locals, heap⟩ value v)
    (free : locals.lookup name = none) :
    exec apply rounds (.simple (.constant name kind value)) ⟨scope, locals, heap⟩ =
      some (.next, ⟨(name, v) :: scope, locals, heap⟩) := by
  unfold Yields at isValue
  show (eval apply value ⟨scope, locals, heap⟩).bind _ = _
  rw [isValue, Option.bind_some]
  unfold State.declare
  dsimp only
  rw [free]
  rfl

theorem exec_variable (isValue : Yields apply ⟨scope, locals, heap⟩ value v) :
    exec apply rounds (.simple (.variable name value)) ⟨scope, locals, heap⟩ =
      some (.next, ⟨scope, (name, v) :: locals, heap⟩) := by
  unfold Yields at isValue
  show (eval apply value ⟨scope, locals, heap⟩).map _ = _
  rw [isValue]
  rfl

theorem simple_result (isValue : Yields apply state value v) :
    Simple.exec apply (.result value) state = some (.returned v, state) := by
  unfold Yields at isValue
  show (eval apply value state).map _ = _
  rw [isValue]
  rfl

theorem exec_result (isValue : Yields apply state value v) :
    exec apply rounds (.simple (.result value)) state = some (.returned v, state) :=
  simple_result isValue

theorem simple_assign (isValue : Yields apply state value v) :
    Simple.exec apply (.assign name value) state = (state.assign name v).map (.next, ·) := by
  unfold Yields at isValue
  show (eval apply value state).bind _ = _
  rw [isValue]
  rfl

theorem exec_subtract {b : α} (isValue : Yields apply state value (.number b)) :
    exec apply rounds (.simple (.subtract name value)) state = step name (· - b) state := by
  unfold Yields at isValue
  rw [exec_simple]
  unfold Simple.exec
  dsimp only
  rw [isValue]

theorem exec_longFunction {parameters : List String} {body : Expr α} :
    exec apply rounds (.longFunction name parameters body) ⟨scope, [], heap⟩ =
      some (.next, ⟨(name, .closure scope parameters (.expr body)) :: scope, [], heap⟩) := rfl

theorem exec_localFunction {parameters : List String} {body : List (Stmt α)} :
    exec apply rounds (.localFunction name parameters body) ⟨scope, [], heap⟩ =
      some (.next, ⟨(name, .closure scope parameters (.block body)) :: scope, [], heap⟩) := rfl

theorem exec_function {parameters : List String} {returns : Kind} {body : List (Stmt α)} :
    exec apply rounds (.function name parameters returns body) ⟨scope, [], heap⟩ =
      some (.next, ⟨(name, .closure scope parameters (.block body)) :: scope, [], heap⟩) := rfl

theorem Yields.guarded {test : Expr α} {simple : Simple α} {isTrue : Bool}
    (isTest : Yields apply state test (.truth isTrue)) :
    exec apply rounds (.guarded test simple) state =
      if isTrue then simple.exec apply state else some (.next, state) := by
  rw [exec_guarded, holds_of_yields isTest]
  cases isTrue with
  | true => rfl
  | false => rfl

theorem Yields.block {test : Expr α} {body : List (Stmt α)} {isTrue : Bool}
    (isTest : Yields apply state test (.truth isTrue)) (named : wellNamed [] body = true) :
    exec apply rounds (.block test body) state =
      if isTrue then inBlock (execAll apply rounds body) state else some (.next, state) := by
  rw [exec_block, holds_of_yields isTest]
  cases isTrue with
  | true => exact if_pos named
  | false => rfl

theorem exec_count {counter : String} {bound : Expr α} {body : List (Stmt α)}
    (named : wellNamed [] body = true) :
    exec apply rounds (.count counter bound body) state =
      inBlock (fun state =>
        repeatWhile (holds apply (.binary .less (.variable counter) bound))
          (counted counter (inBlock (execAll apply rounds body))) rounds
          (state.introduce counter (.number 0))) state := if_pos named

theorem exec_loopAfter {test : Expr α} {body : List (Stmt α)} (named : wellNamed [] body = true) :
    exec apply rounds (.loopAfter body test) state =
      repeatAfter (holds apply test) (inBlock (execAll apply rounds body)) rounds state :=
  if_pos named

theorem Yields.either {test : Expr α} {yes no : Simple α} {isTrue : Bool}
    (isTest : Yields apply state test (.truth isTrue)) :
    exec apply rounds (.either test yes no) state =
      if isTrue then yes.exec apply state else no.exec apply state := by
  rw [exec_either, holds_of_yields isTest]
  cases isTrue with
  | true => rfl
  | false => rfl

/-- Several statements, and then several more. -/
theorem execAll_append_next {front : List (Stmt α)}
    (first : execAll apply rounds front state = some (.next, state')) :
    execAll apply rounds (front ++ rest) state = execAll apply rounds rest state' := by
  rw [execAll_append, first]

/-- The same when the first ones return. -/
theorem execAll_append_returned {front : List (Stmt α)}
    (first : execAll apply rounds front state = some (.returned v, state')) :
    execAll apply rounds (front ++ rest) state = some (.returned v, state') := by
  rw [execAll_append, first]

/-! ### Loops -/

theorem repeatWhile_true {test : State α → Option (Bool × State α)}
    {body : State α → Option (Outcome α × State α)} (goesOn : test state = some (true, state')) :
    repeatWhile test body (rounds + 1) state = repeatAfter test body rounds state' := by
  rw [repeatWhile, goesOn]
  rfl

theorem repeatWhile_false {test : State α → Option (Bool × State α)}
    {body : State α → Option (Outcome α × State α)} (stops : test state = some (false, state')) :
    repeatWhile test body (rounds + 1) state = some (.next, state') := by
  rw [repeatWhile, stops]

theorem repeatAfter_left {test : State α → Option (Bool × State α)}
    {body : State α → Option (Outcome α × State α)} (round : body state = some (.left, state')) :
    repeatAfter test body rounds state = some (.next, state') := by
  rw [repeatAfter, round]

theorem repeatAfter_returned {test : State α → Option (Bool × State α)}
    {body : State α → Option (Outcome α × State α)}
    (round : body state = some (.returned v, state')) :
    repeatAfter test body rounds state = some (.returned v, state') := by
  rw [repeatAfter, round]

theorem counted_next {body : State α → Option (Outcome α × State α)} {counter : String}
    (round : body state = some (.next, state')) :
    counted counter body state = step counter (· + 1) state' := by
  rw [counted, round]

theorem counted_returned {body : State α → Option (Outcome α × State α)} {counter : String}
    (round : body state = some (.returned v, state')) :
    counted counter body state = some (.returned v, state') := by
  rw [counted, round]

/-- A block that declares no variable leaves as many as there were. -/
theorem inBlock_of {body : State α → Option (Outcome α × State α)} {outcome : Outcome α}
    (runs : body state = some (outcome, state'))
    (length : state'.locals.length = state.locals.length) :
    inBlock body state =
      some (outcome, ⟨state.constants, state'.locals, state'.heap⟩) := by
  unfold inBlock
  rw [runs, Option.map_some]
  dsimp only [State.leave]
  rw [length, Nat.sub_self, List.drop_zero]

theorem inBlock_returned {body : State α → Option (Outcome α × State α)}
    (runs : body state = some (.returned v, state')) :
    ∃ last, inBlock body state = some (.returned v, last) ∧ last.heap = state'.heap := by
  refine ⟨state.leave state', ?_, rfl⟩
  unfold inBlock
  rw [runs]
  rfl

theorem repeatAfter_next {test : State α → Option (Bool × State α)}
    {body : State α → Option (Outcome α × State α)} (round : body state = some (.next, state')) :
    repeatAfter test body rounds state = repeatWhile test body rounds state' := by
  rw [repeatAfter, round]

/-- A loop that goes through given states, and then stops. -/
theorem repeatWhile_count {test : State α → Option (Bool × State α)}
    {body : State α → Option (Outcome α × State α)} (states : Nat → State α) {n : Nat}
    (goesOn : ∀ i < n, test (states i) = some (true, states i))
    (steps : ∀ i < n, body (states i) = some (.next, states (i + 1)))
    (stops : test (states n) = some (false, states n)) {k : Nat} (within : k ≤ n)
    (enough : n < k + rounds) :
    repeatWhile test body rounds (states k) = some (.next, states n) := by
  induction rounds generalizing k with
  | zero => omega
  | succ rounds ih =>
    rcases Nat.lt_or_eq_of_le within with before | rfl
    · rw [repeatWhile_true (goesOn k before), repeatAfter_next (steps k before)]
      exact ih before (by omega)
    · exact repeatWhile_false stops

end Statements

end Easing.Script
