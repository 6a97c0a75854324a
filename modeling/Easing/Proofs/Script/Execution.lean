/-
**What scripts compute.**

A script is read as the program that its text is in its language: statements run in order, names
are looked up in the blocks around them, functions see the constants of the place where they are
written, and arrays are shared by everything that holds them. Numbers are the scalars of the curve.
What the language refuses, and what these scripts never do, has no meaning here: a name that is not
declared, is declared twice in a block or after it was written there, a literal without digits, an
entry outside an array, a constant that is assigned to, a function written where a variable is in
sight.

* `Value`, `State`: what is computed with, and what is in sight.
* `wellNamed`: blocks whose names are declared once, and before they are used.
* `eval`: the value of an expression, with the state after it.
* `Simple.exec`, `exec`, `execAll`: what statements do; `repeatWhile`: loops.
* `call`: functions, up to a depth of calls and a number of rounds in each loop.
* `run`: a script as the body of a function of `t`.
-/
import Easing.Script.Tree
import Easing.Scalar

namespace Easing.Script

variable {α : Type}

/-! ### Values and states -/

/-- What a function does: give a value, or run statements. -/
inductive Code (α : Type) where
  | expr (body : Expr α)
  | block (body : List (Stmt α))

/-- What a script computes with. -/
inductive Value (α : Type) where
  | number (a : α)
  | truth (b : Bool)
  /-- An array, by its address. -/
  | list (address : Nat)
  /-- A function with the constants that it sees. -/
  | closure (scope : List (String × Value α)) (parameters : List String) (code : Code α)

/-- The arrays, in the order of their addresses. -/
abbrev Heap (α : Type) := List (List (Value α))

/-- What is in sight, the innermost first, and the arrays. -/
structure State (α : Type) where
  constants : List (String × Value α)
  locals : List (String × Value α)
  heap : Heap α

/-- How a statement ends. -/
inductive Outcome (α : Type) where
  | next
  | left
  | returned (value : Value α)

namespace State

/-- The value of a name. A variable is never hidden by a constant. -/
def find? (state : State α) (name : String) : Option (Value α) :=
  (state.locals.lookup name).or (state.constants.lookup name)

/-- Declares a constant. -/
def declare (state : State α) (name : String) (value : Value α) : Option (State α) :=
  if (state.locals.lookup name).isSome then none
  else some { state with constants := (name, value) :: state.constants }

/-- Declares a variable. -/
def introduce (state : State α) (name : String) (value : Value α) : State α :=
  { state with locals := (name, value) :: state.locals }

/-- The innermost binding of a name, changed. -/
def rebind (name : String) (value : Value α) :
    List (String × Value α) → Option (List (String × Value α))
  | [] => none
  | (other, old) :: rest =>
    if other = name then some ((other, value) :: rest)
    else (rebind name value rest).map ((other, old) :: ·)

/-- Assigns to a variable. -/
def assign (state : State α) (name : String) (value : Value α) : Option (State α) :=
  (rebind name value state.locals).map fun locals => { state with locals }

/-- The function of the given code. -/
def close (state : State α) (parameters : List String) (code : Code α) : Option (Value α) :=
  if state.locals.isEmpty then some (.closure state.constants parameters code) else none

/-- A new array. -/
def allocate (state : State α) (entries : List (Value α)) : Value α × State α :=
  (.list state.heap.length, { state with heap := state.heap ++ [entries] })

/-- What was in sight before a block is in sight after it; what it declared is not. -/
def leave (outer inner : State α) : State α where
  constants := outer.constants
  locals := inner.locals.drop (inner.locals.length - outer.locals.length)
  heap := inner.heap

end State

/-! ### Names -/

section Names

/-- The names that a statement declares. -/
def Stmt.declared : Stmt α → List String
  | .simple (.constant name _ _) => [name]
  | .simple (.constantPair first second _) => [first, second]
  | .simple (.variable name _) => [name]
  | .longFunction name _ _ => [name]
  | .localFunction name _ _ => [name]
  | .function name _ _ _ => [name]
  | .table name _ _ => [name]
  | _ => []

/-- The names that a block declares. -/
def blockNames (body : List (Stmt α)) : List String := body.flatMap Stmt.declared

theorem blockNames_append (front back : List (Stmt α)) :
    blockNames (front ++ back) = blockNames front ++ blockNames back := List.flatMap_append

mutual

/-- The names that an expression uses and does not bind itself. -/
def Expr.uses : Expr α → List String
  | .literal _ | .nan => []
  | .variable name | .incremented name => [name]
  | .binary _ left right => left.uses ++ right.uses
  | .choose test yes no => test.uses ++ yes.uses ++ no.uses
  | .call callee arguments => callee :: Expr.usesAll arguments
  | .builtin _ arguments => Expr.usesAll arguments
  | .item entries place => entries.uses ++ place.uses
  | .size entries => entries.uses
  | .array entries => Expr.usesAll entries
  | .function parameters body => body.uses.removeAll parameters

/-- The names that expressions use. -/
def Expr.usesAll : List (Expr α) → List String
  | [] => []
  | expr :: rest => expr.uses ++ Expr.usesAll rest

end

/-- The names that a statement on one line uses. -/
def Simple.uses : Simple α → List String
  | .constant _ _ value | .constantPair _ _ value | .variable _ value | .result value => value.uses
  | .assign name value | .subtract name value | .push name value => name :: value.uses
  | .increment name | .decrement name => [name]
  | .leave => []

mutual

/-- The names that a statement uses and does not bind inside. -/
def Stmt.uses : Stmt α → List String
  | .simple statement => statement.uses
  | .blank => []
  | .longFunction _ parameters body => body.uses.removeAll parameters
  | .localFunction _ parameters body | .function _ parameters _ body =>
    (Stmt.usesAll body).removeAll (parameters ++ blockNames body)
  | .guarded test statement | .loopOne test statement => test.uses ++ statement.uses
  | .either test yes no => test.uses ++ yes.uses ++ no.uses
  | .block test body | .loop test body | .loopAfter body test =>
    test.uses ++ (Stmt.usesAll body).removeAll (blockNames body)
  | .countOne counter bound statement => (bound.uses ++ statement.uses).removeAll [counter]
  | .count counter bound body =>
    (bound.uses ++ (Stmt.usesAll body).removeAll (blockNames body)).removeAll [counter]
  | .table _ _ rows => Expr.usesAll rows

/-- The names that statements use. -/
def Stmt.usesAll : List (Stmt α) → List String
  | [] => []
  | statement :: rest => statement.uses ++ Stmt.usesAll rest

end

/-- No statement uses a name that it declares itself or that is declared after it. -/
def ordered : List (Stmt α) → Bool
  | [] => true
  | statement :: rest =>
    (statement.uses.all fun name => name ∉ blockNames (statement :: rest)) && ordered rest

/-- A block declares its names once, the given ones included, and before they are used. -/
def wellNamed (parameters : List String) (body : List (Stmt α)) : Bool :=
  decide (parameters ++ blockNames body).Nodup && ordered body

end Names

/-! ### Operations -/

section Operations

variable [Scalar α]

/-- The value of an operation. -/
def Operator.apply : Operator → Value α → Value α → Option (Value α)
  | .or, .truth a, .truth b => some (.truth (a || b))
  | .and, .truth a, .truth b => some (.truth (a && b))
  | .equal, .number a, .number b => some (.truth (a == b))
  | .unequal, .number a, .number b => some (.truth (a != b))
  | .less, .number a, .number b => some (.truth (a < b))
  | .atMost, .number a, .number b => some (.truth (a ≤ b))
  | .greater, .number a, .number b => some (.truth (b < a))
  | .atLeast, .number a, .number b => some (.truth (b ≤ a))
  | .plus, .number a, .number b => some (.number (a + b))
  | .minus, .number a, .number b => some (.number (a - b))
  | .times, .number a, .number b => some (.number (a * b))
  | .divide, .number a, .number b => some (.number (a / b))
  -- of natural numbers that are not too large
  | .shiftRight, .number a, .number b =>
    let n := Scalar.floorNat a
    let k := Scalar.floorNat b
    if (n : α) == a && (k : α) == b && n < Nat.pow 2 31 && k < 32 then
      some (.number ((n >>> k : Nat) : α))
    else none
  | _, _, _ => none

/-- The left operand decides without the right one. -/
def Operator.decides : Operator → Value α → Bool
  | .or, .truth a => a
  | .and, .truth a => !a
  | _, _ => false

/-- The value of a function that every script can call. -/
def Builtin.apply : Builtin → List (Value α) → Option (Value α)
  | .abs, [.number a] => some (.number (Scalar.abs a))
  | .isNaN, [.number a] => some (.truth (Scalar.isNaN a))
  | .floor, [.number a] =>
    let n : α := (Scalar.floorNat a : Nat)
    if n ≤ a ∧ a < n + 1 then some (.number n) else none
  | .min, [.number a, .number b] =>
    if Scalar.isNaN a || Scalar.isNaN b then some (.number Scalar.nan)
    else if b < a then some (.number b)
    else if a < b || Scalar.same a b then some (.number a)
    else none
  | _, _ => none

/-- The entry of an array at a number. -/
def entryAt (entries : List (Value α)) (a : α) : Option (Value α) :=
  ((List.range entries.length).find? fun (index : Nat) => (index : α) == a).bind (entries[·]?)

end Operations

/-! ### Expressions -/

/-- How a function is called: its value, and the arrays after it. -/
abbrev Apply (α : Type) := Value α → List (Value α) → Heap α → Option (Value α × Heap α)

section Running

variable [Scalar α] (apply : Apply α)

mutual

/-- The value of an expression, with the state after it. -/
def eval : Expr α → State α → Option (Value α × State α)
  | .literal a, state => if Scalar.isFinite a then some (.number a, state) else none
  | .nan, state => some (.number Scalar.nan, state)
  | .variable name, state => (state.find? name).map (·, state)
  | .binary operator left right, state =>
    (eval left state).bind fun (a, state) =>
      if operator.decides a then some (a, state)
      else
        (eval right state).bind fun (b, state) =>
          (operator.apply a b).map (·, state)
  | .choose test yes no, state =>
    match eval test state with
    | some (.truth true, state) => eval yes state
    | some (.truth false, state) => eval no state
    | _ => none
  | .call callee arguments, state =>
    (state.find? callee).bind fun function =>
      (evalAll arguments state).bind fun (values, state) =>
        (apply function values state.heap).map fun (value, heap) => (value, { state with heap })
  | .builtin callee arguments, state =>
    (evalAll arguments state).bind fun (values, state) => (callee.apply values).map (·, state)
  | .item array index, state =>
    match eval array state with
    | some (.list address, state) =>
      match eval index state with
      | some (.number a, state) =>
        (state.heap[address]?).bind fun entries => (entryAt entries a).map (·, state)
      | _ => none
    | _ => none
  | .size array, state =>
    match eval array state with
    | some (.list address, state) =>
      (state.heap[address]?).map fun entries => (.number (entries.length : Nat), state)
    | _ => none
  | .array entries, state =>
    (evalAll entries state).map fun (values, state) => state.allocate values
  | .incremented name, state =>
    match state.locals.lookup name with
    | some (.number a) => (state.assign name (.number (a + 1))).map (.number (a + 1), ·)
    | _ => none
  | .function parameters body, state => (state.close parameters (.expr body)).map (·, state)

/-- The values of expressions, from left to right. -/
def evalAll : List (Expr α) → State α → Option (List (Value α) × State α)
  | [], state => some ([], state)
  | expr :: rest, state =>
    (eval expr state).bind fun (value, state) =>
      (evalAll rest state).map fun (values, state) => (value :: values, state)

end

/-- Whether a test holds. -/
def holds (test : Expr α) (state : State α) : Option (Bool × State α) :=
  match eval apply test state with
  | some (.truth b, state) => some (b, state)
  | _ => none

/-! ### Statements -/

/-- Adds to a variable. -/
def step (name : String) (change : α → α) (state : State α) : Option (Outcome α × State α) :=
  match state.locals.lookup name with
  | some (.number a) => (state.assign name (.number (change a))).map (.next, ·)
  | _ => none

/-- What a statement on one line does. -/
def Simple.exec : Simple α → State α → Option (Outcome α × State α)
  | .constant name _ value, state =>
    (eval apply value state).bind fun (v, state) => (state.declare name v).map (.next, ·)
  | .constantPair first second value, state =>
    match eval apply value state with
    | some (.list address, state) =>
      match state.heap[address]? with
      | some [a, b] =>
        ((state.declare first a).bind (·.declare second b)).map (.next, ·)
      | _ => none
    | _ => none
  | .variable name value, state =>
    (eval apply value state).map fun (v, state) => (.next, state.introduce name v)
  | .assign name value, state =>
    (eval apply value state).bind fun (v, state) => (state.assign name v).map (.next, ·)
  | .subtract name value, state =>
    match eval apply value state with
    | some (.number b, state) => step name (· - b) state
    | _ => none
  | .increment name, state => step name (· + 1) state
  | .decrement name, state => step name (· - 1) state
  | .push array value, state =>
    match state.find? array, eval apply value state with
    | some (.list address), some (v, state) =>
      (state.heap[address]?).map fun entries =>
        (.next, { state with heap := state.heap.set address (entries ++ [v]) })
    | _, _ => none
  | .result value, state =>
    (eval apply value state).map fun (v, state) => (.returned v, state)
  | .leave, state => some (.left, state)

/-- Runs a body as long as a test holds before it, for so many rounds at most. -/
def repeatWhile (test : State α → Option (Bool × State α))
    (body : State α → Option (Outcome α × State α)) :
    Nat → State α → Option (Outcome α × State α)
  | 0, _ => none
  | rounds + 1, state =>
    match test state with
    | some (true, state) =>
      match body state with
      | some (.next, state) => repeatWhile test body rounds state
      | some (.left, state) => some (.next, state)
      | other => other
    | some (false, state) => some (.next, state)
    | none => none

/-- Runs a body once, and then as long as a test holds after it. -/
def repeatAfter (test : State α → Option (Bool × State α))
    (body : State α → Option (Outcome α × State α)) (rounds : Nat) (state : State α) :
    Option (Outcome α × State α) :=
  match body state with
  | some (.next, state) => repeatWhile test body rounds state
  | some (.left, state) => some (.next, state)
  | other => other

/-- Runs a body in a block of its own. -/
def inBlock (body : State α → Option (Outcome α × State α)) (state : State α) :
    Option (Outcome α × State α) :=
  (body state).map fun (outcome, inner) => (outcome, state.leave inner)

/-- Runs a body and counts it. -/
def counted (counter : String) (body : State α → Option (Outcome α × State α)) (state : State α) :
    Option (Outcome α × State α) :=
  match body state with
  | some (.next, state) => step counter (· + 1) state
  | other => other

/-- Runs a body for a variable that counts from zero up to a bound. -/
def counting (counter : String) (bound : Expr α) (rounds : Nat)
    (body : State α → Option (Outcome α × State α)) : State α → Option (Outcome α × State α) :=
  inBlock fun state =>
    repeatWhile (holds apply (.binary .less (.variable counter) bound)) (counted counter body)
      rounds (state.introduce counter (.number 0))

variable (rounds : Nat)

mutual

/-- What a statement does. -/
def exec : Stmt α → State α → Option (Outcome α × State α)
  | .simple statement, state => statement.exec apply state
  | .blank, state => some (.next, state)
  | .longFunction name parameters body, state =>
    ((state.close parameters (.expr body)).bind (state.declare name)).map (.next, ·)
  | .localFunction name parameters body, state =>
    ((state.close parameters (.block body)).bind (state.declare name)).map (.next, ·)
  | .function name parameters _ body, state =>
    ((state.close parameters (.block body)).bind (state.declare name)).map (.next, ·)
  | .guarded test statement, state =>
    match holds apply test state with
    | some (true, state) => statement.exec apply state
    | some (false, state) => some (.next, state)
    | none => none
  | .either test yes no, state =>
    match holds apply test state with
    | some (true, state) => yes.exec apply state
    | some (false, state) => no.exec apply state
    | none => none
  | .block test body, state =>
    match holds apply test state with
    | some (true, state) =>
      if wellNamed [] body then inBlock (execAll body) state else none
    | some (false, state) => some (.next, state)
    | none => none
  | .countOne counter bound statement, state =>
    counting apply counter bound rounds (statement.exec apply) state
  | .count counter bound body, state =>
    if wellNamed [] body then
      counting apply counter bound rounds (inBlock (execAll body)) state
    else none
  | .loopOne test statement, state =>
    repeatWhile (holds apply test) (statement.exec apply) rounds state
  | .loop test body, state =>
    if wellNamed [] body then
      repeatWhile (holds apply test) (inBlock (execAll body)) rounds state
    else none
  | .loopAfter body test, state =>
    if wellNamed [] body then
      repeatAfter (holds apply test) (inBlock (execAll body)) rounds state
    else none
  | .table name _ rows, state =>
    (evalAll apply rows state).bind fun (values, state) =>
      ((state.allocate values).2.declare name (state.allocate values).1).map (.next, ·)

/-- What statements do, one after another. -/
def execAll : List (Stmt α) → State α → Option (Outcome α × State α)
  | [], state => some (.next, state)
  | statement :: rest, state =>
    match exec statement state with
    | some (.next, state) => execAll rest state
    | other => other

end

end Running

/-! ### Functions -/

section Calling

variable [Scalar α]

/-- The code of a function and its parameters name things once, and before they are used. -/
def Code.wellNamed (parameters : List String) : Code α → Bool
  | .expr _ => decide parameters.Nodup
  | .block body => Script.wellNamed parameters body

/-- What the code of a function does, and the arrays after it. -/
def Code.run (apply : Apply α) (rounds : Nat) : Code α → State α → Option (Value α × Heap α)
  | .expr body, state => (eval apply body state).map fun (value, state) => (value, state.heap)
  | .block body, state =>
    match execAll apply rounds body state with
    | some (.returned value, state) => some (value, state.heap)
    | _ => none

/-- Calls a function. Calls inside it go to a smaller depth, which also bounds the rounds of its
loops. -/
def call : Nat → Apply α
  | depth + 1, .closure scope parameters code, arguments, heap =>
    if arguments.length = parameters.length ∧ code.wellNamed parameters then
      code.run (call depth) depth ⟨parameters.zip arguments ++ scope, [], heap⟩
    else none
  | _, _, _, _ => none

/-- Runs a script as the body of a function of `t`. -/
def run (depth : Nat) (script : List (Stmt α)) (t : α) : Option (Value α) :=
  (call depth (.closure [] ["t"] (.block script)) [.number t] []).map Prod.fst

end Calling

/-! ### Equations -/

section Equations

variable [Scalar α] {apply : Apply α} {rounds : Nat} {state : State α}

theorem Builtin.apply_floor (a : α) : Builtin.apply .floor [.number a] =
    if (Scalar.floorNat a : α) ≤ a ∧ a < (Scalar.floorNat a : α) + 1 then
      some (.number (Scalar.floorNat a : α))
    else none := rfl

theorem Builtin.apply_min (a b : α) : Builtin.apply .min [.number a, .number b] =
    if Scalar.isNaN a || Scalar.isNaN b then some (.number Scalar.nan)
    else if b < a then some (.number b)
    else if a < b || Scalar.same a b then some (.number a)
    else none := rfl

theorem eval_literal (a : α) : eval apply (.literal a) state =
    if Scalar.isFinite a then some (.number a, state) else none := rfl

theorem eval_variable (name : String) :
    eval apply (.variable name) state = (state.find? name).map (·, state) := rfl

theorem eval_binary (operator : Operator) (left right : Expr α) :
    eval apply (.binary operator left right) state =
      (eval apply left state).bind fun (a, state) =>
        if operator.decides a then some (a, state)
        else (eval apply right state).bind fun (b, state) =>
          (operator.apply a b).map (·, state) := rfl

theorem eval_choose (test yes no : Expr α) : eval apply (.choose test yes no) state =
    match eval apply test state with
    | some (.truth true, state) => eval apply yes state
    | some (.truth false, state) => eval apply no state
    | _ => none := rfl

theorem eval_call (callee : String) (arguments : List (Expr α)) :
    eval apply (.call callee arguments) state =
      (state.find? callee).bind fun function =>
        (evalAll apply arguments state).bind fun (values, state) =>
          (apply function values state.heap).map fun (value, heap) =>
            (value, { state with heap }) := rfl

theorem eval_item (array index : Expr α) : eval apply (.item array index) state =
    match eval apply array state with
    | some (.list address, state) =>
      match eval apply index state with
      | some (.number a, state) =>
        (state.heap[address]?).bind fun entries => (entryAt entries a).map (·, state)
      | _ => none
    | _ => none := rfl

theorem eval_size (array : Expr α) : eval apply (.size array) state =
    match eval apply array state with
    | some (.list address, state) =>
      (state.heap[address]?).map fun entries => (.number (entries.length : Nat), state)
    | _ => none := rfl

theorem eval_array (entries : List (Expr α)) : eval apply (.array entries) state =
    (evalAll apply entries state).map fun (values, state) => state.allocate values := rfl

theorem eval_incremented (name : String) : eval apply (.incremented name) state =
    match state.locals.lookup name with
    | some (.number a) => (state.assign name (.number (a + 1))).map (.number (a + 1), ·)
    | _ => none := rfl

theorem eval_function (parameters : List String) (body : Expr α) :
    eval apply (.function parameters body) state =
      (state.close parameters (.expr body)).map (·, state) := rfl

theorem evalAll_nil : evalAll apply [] state = some ([], state) := rfl

theorem evalAll_cons (expr : Expr α) (rest : List (Expr α)) :
    evalAll apply (expr :: rest) state =
      (eval apply expr state).bind fun (value, state) =>
        (evalAll apply rest state).map fun (values, state) => (value :: values, state) := rfl

theorem exec_simple (statement : Simple α) :
    exec apply rounds (.simple statement) state = statement.exec apply state := rfl

theorem exec_guarded (test : Expr α) (statement : Simple α) :
    exec apply rounds (.guarded test statement) state =
      match holds apply test state with
      | some (true, state) => statement.exec apply state
      | some (false, state) => some (.next, state)
      | none => none := rfl

theorem exec_either (test : Expr α) (yes no : Simple α) :
    exec apply rounds (.either test yes no) state =
      match holds apply test state with
      | some (true, state) => yes.exec apply state
      | some (false, state) => no.exec apply state
      | none => none := rfl

theorem exec_block (test : Expr α) (body : List (Stmt α)) :
    exec apply rounds (.block test body) state =
      match holds apply test state with
      | some (true, state) =>
        if wellNamed [] body then inBlock (execAll apply rounds body) state else none
      | some (false, state) => some (.next, state)
      | none => none := rfl

theorem exec_count_eq (counter : String) (bound : Expr α) (body : List (Stmt α)) :
    exec apply rounds (.count counter bound body) state =
      if wellNamed [] body then
        counting apply counter bound rounds (inBlock (execAll apply rounds body)) state
      else none := rfl

theorem exec_loop_eq (test : Expr α) (body : List (Stmt α)) :
    exec apply rounds (.loop test body) state =
      if wellNamed [] body then
        repeatWhile (holds apply test) (inBlock (execAll apply rounds body)) rounds state
      else none := rfl

theorem exec_loopAfter_eq (test : Expr α) (body : List (Stmt α)) :
    exec apply rounds (.loopAfter body test) state =
      if wellNamed [] body then
        repeatAfter (holds apply test) (inBlock (execAll apply rounds body)) rounds state
      else none := rfl

theorem execAll_nil : execAll apply rounds [] state = some (.next, state) := rfl

theorem execAll_cons (statement : Stmt α) (rest : List (Stmt α)) :
    execAll apply rounds (statement :: rest) state =
      match exec apply rounds statement state with
      | some (.next, state) => execAll apply rounds rest state
      | other => other := rfl

theorem execAll_single (statement : Stmt α) :
    execAll apply rounds [statement] state = exec apply rounds statement state := by
  rw [execAll_cons]
  split
  next ends => rw [ends, execAll_nil]
  next => rfl

/-- Several statements, and then several more. -/
theorem execAll_append (front back : List (Stmt α)) : execAll apply rounds (front ++ back) state =
    match execAll apply rounds front state with
    | some (.next, state) => execAll apply rounds back state
    | other => other := by
  induction front generalizing state with
  | nil => rfl
  | cons statement front ih =>
    rw [List.cons_append, execAll_cons, execAll_cons]
    cases exec apply rounds statement state with
    | none => rfl
    | some given =>
      obtain ⟨outcome, middle⟩ := given
      cases outcome with
      | next => exact ih
      | _ => rfl

/-- A function that begins a line of its own is a constant. -/
theorem exec_longFunction_eq (name : String) (parameters : List String) (body : Expr α) :
    exec apply rounds (.longFunction name parameters body) state =
      exec apply rounds (.simple (.constant name none (.function parameters body))) state := by
  show ((state.close parameters (.expr body)).bind (state.declare name)).map _ =
    ((state.close parameters (.expr body)).map (·, state)).bind _
  cases state.close parameters (.expr body) <;> rfl

/-- So is a table. -/
theorem exec_table_eq (name : String) (kind : Kind) (rows : List (Expr α)) :
    exec apply rounds (.table name kind rows) state =
      exec apply rounds (.simple (.constant name none (.array rows))) state := by
  show (evalAll apply rows state).bind _ =
    ((evalAll apply rows state).map fun (values, state) => state.allocate values).bind _
  cases evalAll apply rows state <;> rfl

end Equations

end Easing.Script
