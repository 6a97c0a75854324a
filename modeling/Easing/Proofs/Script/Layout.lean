/-
**What a script computes does not depend on its layout.**

Annotations, blank lines, functions that begin a line of their own and tables with a line for each
row are ways to write a script. Without them it is a shorter tree, its core, which can be read off
the text. Both compute the same: what a value is differs only in the statements that its functions
hold, and a call of such a function runs the core of them.

* `Stmt.core`, `core`: statements without layout.
* `Value.core`, `State.core`: values and states whose functions hold the cores of their statements.
* `eval_core`, `Simple.exec_core`, `exec_core`: what is done in such a state.
* `call_core`, `run_core`: functions, and a script as a whole.
-/
import Easing.Proofs.Script.Execution

set_option linter.unusedSectionVars false

namespace Easing.Script

variable {α : Type}

/-! ### Cores -/

/-- A statement on one line without its annotation. -/
def Simple.core : Simple α → Simple α
  | .constant name _ value => .constant name none value
  | other => other

mutual

/-- The statements that a statement is without its layout. -/
def Stmt.core : Stmt α → List (Stmt α)
  | .simple statement => [.simple statement.core]
  | .blank => []
  | .longFunction name parameters body =>
    [.simple (.constant name none (.function parameters body))]
  | .localFunction name parameters body => [.localFunction name parameters (core body)]
  | .function name parameters _ body => [.function name parameters .number (core body)]
  | .guarded test statement => [.guarded test statement.core]
  | .either test yes no => [.either test yes.core no.core]
  | .block test body => [.block test (core body)]
  | .countOne counter bound statement => [.countOne counter bound statement.core]
  | .count counter bound body => [.count counter bound (core body)]
  | .loopOne test statement => [.loopOne test statement.core]
  | .loop test body => [.loop test (core body)]
  | .loopAfter body test => [.loopAfter (core body) test]
  | .table name _ rows => [.simple (.constant name none (.array rows))]

/-- Statements without their layout. -/
def core : List (Stmt α) → List (Stmt α)
  | [] => []
  | statement :: rest => statement.core ++ core rest

end

/-- The code of a function without its layout. -/
def Code.core : Code α → Code α
  | .expr body => .expr body
  | .block body => .block (Script.core body)

mutual

/-- A value whose functions hold code without layout. -/
def Value.core : Value α → Value α
  | .number a => .number a
  | .truth b => .truth b
  | .list address => .list address
  | .closure scope parameters code => .closure (coreScope scope) parameters code.core

/-- Names for such values. -/
def coreScope : List (String × Value α) → List (String × Value α)
  | [] => []
  | (name, value) :: rest => (name, value.core) :: coreScope rest

end

/-- Arrays of such values. -/
def coreHeap (heap : Heap α) : Heap α := heap.map (·.map Value.core)

/-- A state with such values. -/
def State.core (state : State α) : State α where
  constants := coreScope state.constants
  locals := coreScope state.locals
  heap := coreHeap state.heap

/-! ### Names -/

section Names

theorem core_append (front back : List (Stmt α)) :
    core (front ++ back) = core front ++ core back := by
  induction front with
  | nil => rfl
  | cons statement front ih => rw [List.cons_append, core, core, ih, List.append_assoc]

theorem usesAll_append (front back : List (Stmt α)) :
    Stmt.usesAll (front ++ back) = Stmt.usesAll front ++ Stmt.usesAll back := by
  induction front with
  | nil => rfl
  | cons statement front ih =>
    rw [List.cons_append, Stmt.usesAll, Stmt.usesAll, ih, List.append_assoc]

theorem Stmt.declared_core (statement : Stmt α) :
    blockNames statement.core = statement.declared := by
  cases statement with
  | simple simple => cases simple <;> rfl
  | _ => rfl

theorem blockNames_core (body : List (Stmt α)) : blockNames (core body) = blockNames body := by
  induction body with
  | nil => rfl
  | cons statement rest ih =>
    rw [core, blockNames_append, ih, statement.declared_core]
    rfl

theorem Simple.uses_core (statement : Simple α) : statement.core.uses = statement.uses := by
  cases statement <;> rfl

mutual

theorem Stmt.uses_core : ∀ statement : Stmt α, Stmt.usesAll statement.core = statement.uses
  | .simple statement | .guarded _ statement | .countOne _ _ statement | .loopOne _ statement => by
    simp [Stmt.core, Stmt.usesAll, Stmt.uses, Simple.uses_core]
  | .either test yes no => by
    simp [Stmt.core, Stmt.usesAll, Stmt.uses, Simple.uses_core]
  | .blank => rfl
  | .longFunction name parameters body => by
    simp [Stmt.core, Stmt.usesAll, Stmt.uses, Simple.uses, Expr.uses]
  | .table name kind rows => by
    simp [Stmt.core, Stmt.usesAll, Stmt.uses, Simple.uses, Expr.uses]
  | .localFunction _ _ body | .function _ _ _ body | .block _ body | .loop _ body
  | .loopAfter body _ | .count _ _ body => by
    simp [Stmt.core, Stmt.usesAll, Stmt.uses, usesAll_core body, blockNames_core]

theorem usesAll_core : ∀ body : List (Stmt α), Stmt.usesAll (core body) = Stmt.usesAll body
  | [] => rfl
  | statement :: rest => by
    rw [core, usesAll_append, Stmt.uses_core statement, usesAll_core rest]
    rfl

end

/-- A statement is one without its layout, or none. -/
theorem Stmt.core_cases (statement : Stmt α) :
    statement.core = [] ∨ ∃ one, statement.core = [one] := by
  cases statement with
  | blank => exact .inl rfl
  | _ => exact .inr ⟨_, rfl⟩

theorem ordered_core (body : List (Stmt α)) : ordered (core body) = ordered body := by
  induction body with
  | nil => rfl
  | cons statement rest ih =>
    have uses := statement.uses_core
    have declared := statement.declared_core
    rw [core, ordered, ← ih]
    rcases statement.core_cases with none | ⟨one, same⟩
    · rw [none] at uses ⊢
      rw [← uses]
      rfl
    · rw [same] at uses declared ⊢
      have names : blockNames (one :: core rest) = blockNames (statement :: rest) := by
        have first : one.declared = statement.declared := by
          rw [← declared, blockNames, List.flatMap_singleton]
        rw [blockNames, blockNames, List.flatMap_cons, List.flatMap_cons, first]
        exact congrArg (statement.declared ++ ·) (blockNames_core rest)
      rw [Stmt.usesAll, Stmt.usesAll, List.append_nil] at uses
      rw [List.singleton_append, ordered, uses, names]

/-- Layout names nothing. -/
theorem wellNamed_core (parameters : List String) (body : List (Stmt α)) :
    wellNamed parameters (core body) = wellNamed parameters body := by
  rw [wellNamed, wellNamed, blockNames_core, ordered_core]

end Names

/-! ### States -/

section States

variable (state : State α) (name : String) (value : Value α)

theorem lookup_core (scope : List (String × Value α)) :
    (coreScope scope).lookup name = (scope.lookup name).map Value.core := by
  induction scope with
  | nil => rfl
  | cons binding scope ih =>
    obtain ⟨other, value⟩ := binding
    rw [coreScope, List.lookup_cons, List.lookup_cons]
    split
    · rfl
    · exact ih

theorem length_coreScope (scope : List (String × Value α)) :
    (coreScope scope).length = scope.length := by
  induction scope with
  | nil => rfl
  | cons binding scope ih => exact congrArg (· + 1) ih

theorem coreScope_drop (count : Nat) (scope : List (String × Value α)) :
    (coreScope scope).drop count = coreScope (scope.drop count) := by
  induction scope generalizing count with
  | nil =>
    rw [List.drop_nil]
    exact List.drop_nil
  | cons binding scope ih =>
    cases count with
    | zero => rfl
    | succ count => exact ih count

theorem coreScope_append (front back : List (String × Value α)) :
    coreScope (front ++ back) = coreScope front ++ coreScope back := by
  induction front with
  | nil => rfl
  | cons binding front ih =>
    rw [List.cons_append, coreScope, coreScope, ih, List.cons_append]

theorem coreScope_zip (names : List String) (values : List (Value α)) :
    coreScope (names.zip values) = names.zip (values.map Value.core) := by
  induction names generalizing values with
  | nil => rfl
  | cons name names ih =>
    cases values with
    | nil => rfl
    | cons value values => exact congrArg ((name, value.core) :: ·) (ih values)

namespace State

theorem find?_core : state.core.find? name = (state.find? name).map Value.core := by
  show ((coreScope state.locals).lookup name).or ((coreScope state.constants).lookup name) = _
  rw [lookup_core, lookup_core, find?]
  cases state.locals.lookup name <;> rfl

theorem declare_core :
    state.core.declare name value.core = (state.declare name value).map State.core := by
  unfold declare
  rw [show state.core.locals = coreScope state.locals from rfl, lookup_core, Option.isSome_map]
  split <;> rfl

theorem rebind_core (scope : List (String × Value α)) :
    rebind name value.core (coreScope scope) = (rebind name value scope).map coreScope := by
  induction scope with
  | nil => rfl
  | cons binding scope ih =>
    obtain ⟨other, old⟩ := binding
    rw [coreScope, rebind, rebind]
    split
    · rfl
    · rw [ih]
      cases rebind name value scope <;> rfl

theorem assign_core :
    state.core.assign name value.core = (state.assign name value).map State.core := by
  unfold assign
  rw [show state.core.locals = coreScope state.locals from rfl, rebind_core]
  cases rebind name value state.locals <;> rfl

theorem close_core (parameters : List String) (code : Code α) :
    state.core.close parameters code.core = (state.close parameters code).map Value.core := by
  unfold close
  have same : state.core.locals.isEmpty = state.locals.isEmpty := by
    show (coreScope state.locals).isEmpty = _
    cases state.locals <;> rfl
  rw [same]
  split <;> rfl

theorem allocate_core (entries : List (Value α)) :
    state.core.allocate (entries.map Value.core) =
      ((state.allocate entries).1.core, (state.allocate entries).2.core) := by
  simp [allocate, State.core, coreHeap, Value.core]

/-- An array of cores. -/
theorem heap_core (address : Nat) :
    state.core.heap[address]? = (state.heap[address]?).map (List.map Value.core) :=
  List.getElem?_map

theorem leave_core (inner : State α) : state.core.leave inner.core = (state.leave inner).core := by
  simp [leave, State.core, length_coreScope, coreScope_drop]

end State

end States

/-! ### Expressions -/

section Running

variable [Scalar α] {apply : Apply α} {state : State α}

theorem Operator.apply_core (operator : Operator) (a b : Value α) :
    operator.apply a.core b.core = (operator.apply a b).map Value.core := by
  cases a <;> cases b <;> cases operator <;> first | rfl | skip
  -- a shift is the only operation with a test
  unfold Operator.apply
  dsimp only [Value.core]
  split <;> rfl

theorem Operator.decides_core (operator : Operator) (a : Value α) :
    operator.decides a.core = operator.decides a := by
  cases a <;> cases operator <;> rfl

theorem Builtin.apply_core (callee : Builtin) (values : List (Value α)) :
    callee.apply (values.map Value.core) = (callee.apply values).map Value.core := by
  match values with
  | [] => cases callee <;> rfl
  | [a] =>
    cases a with
    | number a =>
      cases callee with
      | floor =>
        rw [List.map_singleton, Value.core, Builtin.apply_floor]
        split <;> rfl
      | _ => rfl
    | _ => cases callee <;> rfl
  | [a, b] =>
    cases callee with
    | min =>
      cases a <;> cases b <;> first | rfl | skip
      rw [List.map_cons, List.map_singleton, Value.core, Value.core, Builtin.apply_min]
      split
      · rfl
      · split
        · rfl
        · split <;> rfl
    | _ => cases a <;> cases b <;> rfl
  | a :: b :: c :: rest => cases a <;> cases b <;> cases callee <;> rfl

theorem entryAt_core (entries : List (Value α)) (a : α) :
    entryAt (entries.map Value.core) a = (entryAt entries a).map Value.core := by
  unfold entryAt
  rw [List.length_map]
  cases (List.range entries.length).find? fun (index : Nat) => (index : α) == a with
  | none => rfl
  | some index => exact List.getElem?_map

/-- What is done next is the same for cores when it is for each that is found. -/
theorem bind_core {β β' γ γ' : Type} {found : Option β} {change : β → β'} {change' : γ → γ'}
    {next : β → Option γ} {next' : β' → Option γ'}
    (same : ∀ b, next' (change b) = (next b).map change') :
    (found.map change).bind next' = (found.bind next).map change' := by
  rw [Option.bind_map, Option.map_bind]
  exact congrArg found.bind (funext same)

/-- Calls are the same for functions that hold cores. -/
def Keeps (apply : Apply α) : Prop :=
  ∀ function arguments heap,
    apply (Value.core function) (arguments.map Value.core) (coreHeap heap) =
      (apply function arguments heap).map (Prod.map Value.core coreHeap)

mutual

/-- **The value of an expression in a state of cores.** -/
theorem eval_core (keeps : Keeps apply) : ∀ (expr : Expr α) (state : State α),
    eval apply expr state.core = (eval apply expr state).map (Prod.map Value.core State.core)
  | .literal a, state => by
    rw [eval_literal, eval_literal]
    split <;> rfl
  | .nan, state => rfl
  | .variable name, state => by
    rw [eval_variable, eval_variable, State.find?_core]
    cases state.find? name <;> rfl
  | .binary operator left right, state => by
    rw [eval_binary, eval_binary, eval_core keeps left state]
    refine bind_core ?_
    rintro ⟨a, middle⟩
    dsimp only [Prod.map]
    rw [Operator.decides_core, eval_core keeps right middle]
    split
    · rfl
    · refine bind_core ?_
      rintro ⟨b, last⟩
      dsimp only [Prod.map]
      rw [Operator.apply_core]
      cases operator.apply a b <;> rfl
  | .choose test yes no, state => by
    rw [eval_choose, eval_choose, eval_core keeps test state]
    cases eval apply test state with
    | none => rfl
    | some first =>
      obtain ⟨a, middle⟩ := first
      cases a with
      | truth isTrue =>
        cases isTrue with
        | true => exact eval_core keeps yes middle
        | false => exact eval_core keeps no middle
      | _ => rfl
  | .call callee arguments, state => by
    rw [eval_call, eval_call, State.find?_core]
    refine bind_core fun function => ?_
    rw [evalAll_core keeps arguments state]
    refine bind_core ?_
    rintro ⟨values, middle⟩
    dsimp only [Prod.map]
    rw [show middle.core.heap = coreHeap middle.heap from rfl, keeps]
    cases apply function values middle.heap <;> rfl
  | .builtin callee arguments, state => by
    show (evalAll apply arguments state.core).bind _ = ((evalAll apply arguments state).bind _).map _
    rw [evalAll_core keeps arguments state]
    refine bind_core ?_
    rintro ⟨values, middle⟩
    dsimp only [Prod.map]
    rw [Builtin.apply_core]
    cases callee.apply values <;> rfl
  | .item array place, state => by
    rw [eval_item, eval_item, eval_core keeps array state]
    cases eval apply array state with
    | none => rfl
    | some first =>
      obtain ⟨a, middle⟩ := first
      cases a with
      | list address =>
        dsimp only [Option.map_some, Prod.map, Value.core]
        rw [eval_core keeps place middle]
        cases eval apply place middle with
        | none => rfl
        | some second =>
          obtain ⟨b, last⟩ := second
          cases b with
          | number b =>
            dsimp only [Option.map_some, Prod.map, Value.core]
            rw [State.heap_core]
            refine bind_core fun entries => ?_
            rw [entryAt_core]
            cases entryAt entries b <;> rfl
          | _ => rfl
      | _ => rfl
  | .size array, state => by
    rw [eval_size, eval_size, eval_core keeps array state]
    cases eval apply array state with
    | none => rfl
    | some first =>
      obtain ⟨a, middle⟩ := first
      cases a with
      | list address =>
        dsimp only [Option.map_some, Prod.map, Value.core]
        rw [State.heap_core]
        cases middle.heap[address]? with
        | none => rfl
        | some entries =>
          dsimp only [Option.map_some, Prod.map, Value.core]
          rw [List.length_map]
      | _ => rfl
  | .array entries, state => by
    rw [eval_array, eval_array, evalAll_core keeps entries state]
    cases evalAll apply entries state with
    | none => rfl
    | some given =>
      obtain ⟨values, middle⟩ := given
      exact congrArg some (middle.allocate_core values)
  | .incremented name, state => by
    rw [eval_incremented, eval_incremented, show state.core.locals = coreScope state.locals from rfl,
      lookup_core]
    cases state.locals.lookup name with
    | none => rfl
    | some value =>
      cases value with
      | number a =>
        have assigned := state.assign_core name (.number (a + 1))
        dsimp only [Option.map_some, Value.core] at assigned ⊢
        rw [assigned]
        cases state.assign name (.number (a + 1)) <;> rfl
      | _ => rfl
  | .function parameters body, state => by
    have closed := state.close_core parameters (.expr body)
    rw [Code.core] at closed
    rw [eval_function, eval_function, closed]
    cases state.close parameters (.expr body) <;> rfl

/-- The values of several expressions. -/
theorem evalAll_core (keeps : Keeps apply) : ∀ (exprs : List (Expr α)) (state : State α),
    evalAll apply exprs state.core =
      (evalAll apply exprs state).map (Prod.map (List.map Value.core) State.core)
  | [], state => rfl
  | expr :: rest, state => by
    rw [evalAll_cons, evalAll_cons, eval_core keeps expr state]
    refine bind_core ?_
    rintro ⟨value, middle⟩
    dsimp only [Prod.map]
    rw [evalAll_core keeps rest middle]
    cases evalAll apply rest middle <;> rfl

end

/-! ### Statements -/

/-- The end of a statement with a value whose functions hold cores. -/
def Outcome.core : Outcome α → Outcome α
  | .next => .next
  | .left => .left
  | .returned value => .returned value.core

/-- A test is the same in a state of cores. -/
def KeepsTest (test : State α → Option (Bool × State α)) : Prop :=
  ∀ state, test state.core = (test state).map (Prod.map id State.core)

/-- What is done, and what is done by the core of a body in a state of cores. -/
def KeepsBody (body body' : State α → Option (Outcome α × State α)) : Prop :=
  ∀ state, body' state.core = (body state).map (Prod.map Outcome.core State.core)

theorem holds_core (keeps : Keeps apply) (test : Expr α) : KeepsTest (holds apply test) := by
  intro state
  unfold holds
  rw [eval_core keeps]
  cases eval apply test state with
  | none => rfl
  | some first =>
    obtain ⟨a, middle⟩ := first
    cases a <;> rfl

theorem step_core (name : String) (change : α → α) :
    KeepsBody (step name change) (step name change) := by
  intro state
  unfold step
  rw [show state.core.locals = coreScope state.locals from rfl, lookup_core]
  cases state.locals.lookup name with
  | none => rfl
  | some value =>
    cases value with
    | number a =>
      have assigned := state.assign_core name (.number (change a))
      dsimp only [Option.map_some, Value.core] at assigned ⊢
      rw [assigned]
      cases state.assign name (.number (change a)) <;> rfl
    | _ => rfl

/-- **What a statement on one line does in a state of cores.** -/
theorem Simple.exec_core (keeps : Keeps apply) (statement : Simple α) :
    KeepsBody (statement.exec apply) (statement.core.exec apply) := by
  intro state
  cases statement with
  | constant name kind value =>
    show (eval apply value state.core).bind _ = ((eval apply value state).bind _).map _
    rw [eval_core keeps]
    refine bind_core ?_
    rintro ⟨a, middle⟩
    dsimp only [Prod.map]
    rw [State.declare_core]
    cases middle.declare name a <;> rfl
  | constantPair first second value =>
    unfold Simple.core Simple.exec
    dsimp only
    rw [eval_core keeps]
    cases eval apply value state with
    | none => rfl
    | some given =>
      obtain ⟨a, middle⟩ := given
      cases a with
      | list address =>
        dsimp only [Option.map_some, Prod.map, Value.core]
        rw [State.heap_core]
        cases middle.heap[address]? with
        | none => rfl
        | some entries =>
          match entries with
          | [] | [_] | _ :: _ :: _ :: _ => rfl
          | [a, b] =>
            show ((middle.core.declare first a.core).bind (·.declare second b.core)).map _ =
              (((middle.declare first a).bind (·.declare second b)).map _).map _
            rw [State.declare_core]
            cases middle.declare first a with
            | none => rfl
            | some last =>
              show (last.core.declare second b.core).map _ = ((last.declare second b).map _).map _
              rw [State.declare_core]
              cases last.declare second b <;> rfl
      | _ => rfl
  | «variable» name value =>
    show (eval apply value state.core).map _ = ((eval apply value state).map _).map _
    rw [eval_core keeps]
    cases eval apply value state <;> rfl
  | assign name value =>
    show (eval apply value state.core).bind _ = ((eval apply value state).bind _).map _
    rw [eval_core keeps]
    refine bind_core ?_
    rintro ⟨a, middle⟩
    dsimp only [Prod.map]
    rw [State.assign_core]
    cases middle.assign name a <;> rfl
  | subtract name value =>
    unfold Simple.core Simple.exec
    dsimp only
    rw [eval_core keeps]
    cases eval apply value state with
    | none => rfl
    | some first =>
      obtain ⟨a, middle⟩ := first
      cases a with
      | number a => exact step_core name (· - a) middle
      | _ => rfl
  | increment name => exact step_core name (· + 1) state
  | decrement name => exact step_core name (· - 1) state
  | push array value =>
    unfold Simple.core Simple.exec
    dsimp only
    rw [State.find?_core, eval_core keeps]
    cases state.find? array with
    | none => rfl
    | some given =>
      cases given with
      | list address =>
        cases eval apply value state with
        | none => rfl
        | some second =>
          obtain ⟨a, middle⟩ := second
          dsimp only [Option.map_some, Prod.map, Value.core]
          rw [State.heap_core]
          cases middle.heap[address]? with
          | none => rfl
          | some entries => simp [State.core, coreHeap, Outcome.core, List.map_set]
      | _ => cases eval apply value state <;> rfl
  | result value =>
    show (eval apply value state.core).map _ = ((eval apply value state).map _).map _
    rw [eval_core keeps]
    cases eval apply value state <;> rfl
  | leave => rfl

section Bodies

variable {test : State α → Option (Bool × State α)}
  {body body' : State α → Option (Outcome α × State α)}

theorem repeatWhile_core (keepsTest : KeepsTest test) (keepsBody : KeepsBody body body')
    (rounds : Nat) : KeepsBody (repeatWhile test body rounds) (repeatWhile test body' rounds) := by
  induction rounds with
  | zero => exact fun _ => rfl
  | succ rounds ih =>
    intro state
    rw [repeatWhile, repeatWhile, keepsTest]
    cases test state with
    | none => rfl
    | some first =>
      obtain ⟨goesOn, middle⟩ := first
      cases goesOn with
      | false => rfl
      | true =>
        dsimp only [Option.map_some, Prod.map, id]
        rw [keepsBody]
        cases body middle with
        | none => rfl
        | some second =>
          obtain ⟨outcome, last⟩ := second
          cases outcome with
          | next => exact ih last
          | _ => rfl

theorem repeatAfter_core (keepsTest : KeepsTest test) (keepsBody : KeepsBody body body')
    (rounds : Nat) : KeepsBody (repeatAfter test body rounds) (repeatAfter test body' rounds) := by
  intro state
  rw [repeatAfter, repeatAfter, keepsBody]
  cases body state with
  | none => rfl
  | some first =>
    obtain ⟨outcome, last⟩ := first
    cases outcome with
    | next => exact repeatWhile_core keepsTest keepsBody rounds last
    | _ => rfl

theorem inBlock_core (keepsBody : KeepsBody body body') :
    KeepsBody (inBlock body) (inBlock body') := by
  intro state
  rw [inBlock, inBlock, keepsBody]
  cases body state with
  | none => rfl
  | some first =>
    obtain ⟨outcome, inner⟩ := first
    exact congrArg (fun last => some (outcome.core, last)) (state.leave_core inner)

theorem counted_core (counter : String) (keepsBody : KeepsBody body body') :
    KeepsBody (counted counter body) (counted counter body') := by
  intro state
  rw [counted, counted, keepsBody]
  cases body state with
  | none => rfl
  | some first =>
    obtain ⟨outcome, last⟩ := first
    cases outcome with
    | next => exact step_core counter (· + 1) last
    | _ => rfl

theorem counting_core (keeps : Keeps apply) (counter : String) (bound : Expr α) (rounds : Nat)
    (keepsBody : KeepsBody body body') :
    KeepsBody (counting apply counter bound rounds body)
      (counting apply counter bound rounds body') :=
  inBlock_core fun state => repeatWhile_core (holds_core keeps _) (counted_core counter keepsBody)
    rounds (state.introduce counter (.number 0))

end Bodies

variable (rounds : Nat)

/-- The function that a name stands for from here on. -/
theorem close_declare_core (name : String) (parameters : List String) (code : Code α) :
    ((state.core.close parameters code.core).bind (state.core.declare name)).map
        ((.next : Outcome α), ·) =
      (((state.close parameters code).bind (state.declare name)).map (.next, ·)).map
        (Prod.map Outcome.core State.core) := by
  rw [State.close_core]
  cases state.close parameters code with
  | none => rfl
  | some function =>
    show (state.core.declare name function.core).map _ = ((state.declare name function).map _).map _
    rw [State.declare_core]
    cases state.declare name function <;> rfl

mutual

/-- **What a statement does in a state of cores.** -/
theorem exec_core (keeps : Keeps apply) : ∀ statement : Stmt α,
    KeepsBody (exec apply rounds statement) (execAll apply rounds statement.core)
  | .simple statement => fun state => by
    rw [Stmt.core, execAll_single]
    exact statement.exec_core keeps state
  | .blank => fun _ => rfl
  | .longFunction name parameters body => fun state => by
    rw [Stmt.core, execAll_single, exec_longFunction_eq]
    exact Simple.exec_core keeps (.constant name none (.function parameters body)) state
  | .localFunction name parameters body => fun state => by
    rw [Stmt.core, execAll_single]
    exact close_declare_core name parameters (.block body)
  | .function name parameters _ body => fun state => by
    rw [Stmt.core, execAll_single]
    exact close_declare_core name parameters (.block body)
  | .guarded test statement => fun state => by
    rw [Stmt.core, execAll_single, exec_guarded, exec_guarded, holds_core keeps test state]
    cases holds apply test state with
    | none => rfl
    | some given =>
      obtain ⟨isTrue, middle⟩ := given
      cases isTrue with
      | true => exact statement.exec_core keeps middle
      | false => rfl
  | .either test yes no => fun state => by
    rw [Stmt.core, execAll_single, exec_either, exec_either, holds_core keeps test state]
    cases holds apply test state with
    | none => rfl
    | some given =>
      obtain ⟨isTrue, middle⟩ := given
      cases isTrue with
      | true => exact yes.exec_core keeps middle
      | false => exact no.exec_core keeps middle
  | .block test body => fun state => by
    rw [Stmt.core, execAll_single, exec_block, exec_block, holds_core keeps test state,
      wellNamed_core]
    cases holds apply test state with
    | none => rfl
    | some given =>
      obtain ⟨isTrue, middle⟩ := given
      cases isTrue with
      | true =>
        dsimp only [Option.map_some, Prod.map, id]
        split
        · exact inBlock_core (execAll_core keeps body) middle
        · rfl
      | false => rfl
  | .countOne counter bound statement => fun state => by
    rw [Stmt.core, execAll_single]
    exact counting_core keeps counter bound rounds (statement.exec_core keeps) state
  | .count counter bound body => fun state => by
    rw [Stmt.core, execAll_single, exec_count_eq, exec_count_eq, wellNamed_core]
    split
    · exact counting_core keeps counter bound rounds (inBlock_core (execAll_core keeps body)) state
    · rfl
  | .loopOne test statement => fun state => by
    rw [Stmt.core, execAll_single]
    exact repeatWhile_core (holds_core keeps test) (statement.exec_core keeps) rounds state
  | .loop test body => fun state => by
    rw [Stmt.core, execAll_single, exec_loop_eq, exec_loop_eq, wellNamed_core]
    split
    · exact repeatWhile_core (holds_core keeps test) (inBlock_core (execAll_core keeps body))
        rounds state
    · rfl
  | .loopAfter body test => fun state => by
    rw [Stmt.core, execAll_single, exec_loopAfter_eq, exec_loopAfter_eq, wellNamed_core]
    split
    · exact repeatAfter_core (holds_core keeps test) (inBlock_core (execAll_core keeps body))
        rounds state
    · rfl
  | .table name kind rows => fun state => by
    rw [Stmt.core, execAll_single, exec_table_eq]
    exact Simple.exec_core keeps (.constant name none (.array rows)) state

/-- **What statements do in a state of cores.** -/
theorem execAll_core (keeps : Keeps apply) : ∀ body : List (Stmt α),
    KeepsBody (execAll apply rounds body) (execAll apply rounds (core body))
  | [] => fun _ => rfl
  | statement :: rest => fun state => by
    rw [core, execAll_append, execAll_cons, exec_core keeps statement state]
    cases exec apply rounds statement state with
    | none => rfl
    | some given =>
      obtain ⟨outcome, middle⟩ := given
      cases outcome with
      | next => exact execAll_core keeps rest middle
      | _ => rfl

end

/-! ### Functions -/

theorem Code.wellNamed_core (parameters : List String) (code : Code α) :
    code.core.wellNamed parameters = code.wellNamed parameters := by
  cases code with
  | expr body => rfl
  | block body => exact Script.wellNamed_core parameters body

theorem Code.run_core (keeps : Keeps apply) (code : Code α) (state : State α) :
    code.core.run apply rounds state.core =
      (code.run apply rounds state).map (Prod.map Value.core coreHeap) := by
  cases code with
  | expr body =>
    rw [Code.core, Code.run, Code.run, eval_core keeps]
    cases eval apply body state <;> rfl
  | block body =>
    rw [Code.core, Code.run, Code.run, execAll_core rounds keeps]
    cases execAll apply rounds body state with
    | none => rfl
    | some given =>
      obtain ⟨outcome, last⟩ := given
      cases outcome <;> rfl

/-- **A function does with cores what it does.** -/
theorem call_core (depth : Nat) : Keeps (call depth : Apply α) := by
  induction depth with
  | zero => exact fun _ _ _ => rfl
  | succ depth ih =>
    intro function arguments heap
    cases function with
    | closure scope parameters code =>
      have start : State.core ⟨parameters.zip arguments ++ scope, [], heap⟩ =
          ⟨parameters.zip (arguments.map Value.core) ++ coreScope scope, [], coreHeap heap⟩ := by
        rw [State.core, coreScope_append, coreScope_zip]
        rfl
      rw [Value.core, call, call, List.length_map, Code.wellNamed_core, ← start, Code.run_core depth ih]
      split <;> rfl
    | _ => rfl

/-- **A script computes what its core computes.** -/
theorem run_core (depth : Nat) (script : List (Stmt α)) (t : α) :
    run depth (core script) t = (run depth script t).map Value.core := by
  have called := call_core depth (.closure [] ["t"] (.block script)) [.number t] []
  show (call depth (.closure [] ["t"] (.block (core script))) [.number t] []).map Prod.fst = _
  rw [run]
  change call depth (.closure [] ["t"] (.block (core script))) [.number t] [] = _ at called
  rw [called]
  cases call depth (.closure [] ["t"] (.block script)) [.number t] [] <;> rfl

end Running

end Easing.Script
