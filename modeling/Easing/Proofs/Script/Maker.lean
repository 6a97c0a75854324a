/-
**The curves that the solver makes.**

The solver's function makes a curve from four control values. Unless the curve is the identity, it
stores the table of the curve in a new array, which the curve reads whenever it is called: so a
curve stays what it is while more arrays are stored.

* `fill_spec`: the loop that fills a table.
* `Solves`: a function has the values of a unit cubic, now and later.
* `makes_solver`: the function made from the control values of a unit cubic does.
-/
import Easing.Proofs.Script.Solver

set_option linter.unusedSectionVars false

namespace Easing.Script

variable {α : Type} [Scalar α] [Counting α]

section Making

variable {cubic : UnitCubic α} {m rounds : Nat} {scope outer : Scope α} {heap : Heap α}

/-! ### The table -/

/-- Where a round of the loop that fills a table begins. -/
def fillState (scope : Scope α) (heap : Heap α) (cubic : UnitCubic α) (index : Nat) : State α :=
  ⟨scope, [("i", .number (index : α))], heap ++ [tableOf cubic index]⟩

/-- One entry more. -/
def fillRound : Simple α := .push "table" (xAt (mul (var "i") (var "TABLE_STEP")))

/-- The test of the loop. -/
def fillTest : Expr α := .binary .less (.variable "i") (var "TABLE_SIZE")

section Filling

variable (sees : Sees cubic ⟨scope, [], heap⟩)
  (isTable : scope.lookup "table" = some (.list heap.length))

include sees

theorem Sees.fillState (index : Nat) : Sees cubic (fillState scope heap cubic index) :=
  sees.of_agrees (agrees_variable (by decide))

theorem Sees.holds_fillTest {apply : Apply α} {index : Nat} (within : index ≤ 11) :
    holds apply fillTest (Script.fillState scope heap cubic index) =
      some (decide (index < 11), Script.fillState scope heap cubic index) := by
  have same : decide ((index : α) < ((11 : Nat) : α)) = decide (index < 11) :=
    decide_eq_decide.mpr (Counting.lt index within 11 (Nat.le_refl _))
  rw [← same]
  exact holds_of_yields (Yields.binary (yields_var rfl)
    (yields_var (sees.fillState index).library.tableSize) rfl rfl)

include isTable

theorem Sees.counted_fillRound (deep : 2 ≤ m) {index : Nat} (within : index ≤ 10) :
    counted "i" (Simple.exec (call m) fillRound) (Script.fillState scope heap cubic index) =
      some (.next, Script.fillState scope heap cubic (index + 1)) := by
  have entry : eval (call m) (xAt (mul (var "i") (var "TABLE_STEP")))
      (Script.fillState scope heap cubic index) =
        some (.number (cubic.knotX index), Script.fillState scope heap cubic index) :=
    (sees.fillState index).yields_xAt deep
      ((yields_var rfl).mul (yields_var (sees.fillState index).library.tableStep))
  have pushed : Simple.exec (call m) fillRound (Script.fillState scope heap cubic index) =
      some (.next,
        ⟨scope, [("i", .number (index : α))], heap ++ [tableOf cubic (index + 1)]⟩) := by
    have array : (Script.fillState scope heap cubic index).find? "table" =
        some (.list heap.length) := isTable
    have stored : (Script.fillState scope heap cubic index).heap[heap.length]? =
        some (tableOf cubic index) := List.getElem?_concat_length
    have longer :
        tableOf cubic (index + 1) = tableOf cubic index ++ [.number (cubic.knotX index)] := by
      unfold tableOf
      rw [List.range_succ, List.map_append, List.map_singleton]
    unfold Simple.exec fillRound
    dsimp only
    rw [array, entry]
    dsimp only
    rw [stored, Option.map_some]
    show some (Outcome.next,
      (⟨scope, [("i", .number (index : α))], (heap ++ [_]).set _ _⟩ : State α)) = _
    rw [List.set_append_right _ _ (Nat.le_refl _), Nat.sub_self, longer]
    rfl
  rw [counted_next pushed]
  unfold Script.fillState
  rw [← Counting.succ index (by omega)]
  rfl

/-- **The loop fills the table.** -/
theorem Sees.exec_fill (deep : 2 ≤ m) (enough : 11 < rounds) :
    exec (call m) rounds (.countOne "i" (var "TABLE_SIZE") fillRound)
        ⟨scope, [], heap ++ [tableOf cubic 0]⟩ =
      some (.next, ⟨scope, [], heap ++ [tableOf cubic 11]⟩) := by
  have filled : repeatWhile (holds (call m) fillTest) (counted "i" (Simple.exec (call m) fillRound))
      rounds (Script.fillState scope heap cubic 0) =
        some (.next, Script.fillState scope heap cubic 11) := by
    refine repeatWhile_count (Script.fillState scope heap cubic) ?_ ?_ ?_ (Nat.zero_le 11) (by omega)
    · intro index before
      rw [sees.holds_fillTest (by omega), decide_eq_true before]
    · intro index before
      exact sees.counted_fillRound isTable deep (by omega)
    · exact sees.holds_fillTest (Nat.le_refl 11)
  show inBlock (fun state => repeatWhile (holds (call m) fillTest)
    (counted "i" (Simple.exec (call m) fillRound)) rounds (state.introduce "i" (.number 0))) _ = _
  unfold inBlock
  exact congrArg (Option.map _) filled

end Filling

/-! ### The curve -/

/-- A function has the values of a unit cubic, also when more arrays are stored. -/
def Solves (function : Value α) (heap : Heap α) (cubic : UnitCubic α) : Prop :=
  ∀ later, heap <+: later → ∀ x, Gives 12 later function [x] (cubic.eval x)

theorem Solves.later {function : Value α} {later : Heap α} (solves : Solves function heap cubic)
    (kept : heap <+: later) : Solves function later cubic :=
  fun last more => solves last (kept.trans more)

/-- What the function that makes a curve sees. -/
def makerScope (scope : Scope α) (cubic : UnitCubic α) : Scope α :=
  ("x1", .number cubic.x1) :: ("y1", .number cubic.y1) :: ("x2", .number cubic.x2) ::
    ("y2", .number cubic.y2) :: scope

/-- What is in sight once the table is stored. -/
def tabledScope (scope : Scope α) (cubic : UnitCubic α) (address : Nat) : Scope α :=
  ("table", .list address) :: makerScope scope cubic

/-- What a curve sees: the control values, the table and the search. -/
def curveScope (scope : Scope α) (cubic : UnitCubic α) (address : Nat) : Scope α :=
  ("tForX", .closure (tabledScope scope cubic address) ["x"] (.block searchBody)) ::
    tabledScope scope cubic address

theorem Library.tabled (library : Library ⟨scope, [], heap⟩) (address : Nat) :
    Library ⟨tabledScope scope cubic address, [], heap⟩ :=
  ((((library.constant (by decide)).constant (by decide)).constant (by decide)).constant
    (by decide)).constant (by decide)

/-- The curve computes the values of the unit cubic from its table. -/
theorem solves_curve (library : ∀ heap, Library ⟨scope, [], heap⟩)
    (notIdentity : cubic.isIdentity = false) :
    Solves (.closure (curveScope scope cubic heap.length) ["x"] (.expr curveBody))
      (heap ++ [tableOf cubic 11]) cubic := by
  intro later kept x
  have tabled : Library ⟨tabledScope scope cubic heap.length, [], later⟩ := (library later).tabled _
  have inside : Library ⟨("x", .number x) :: curveScope scope cubic heap.length, [], later⟩ :=
    (tabled.constant (by decide)).constant (by decide)
  have searching : Searching cubic x heap.length
      ⟨("x", .number x) :: tabledScope scope cubic heap.length, [], later⟩ :=
    { library := tabled.constant (by decide)
      x1 := rfl
      x2 := rfl
      x := rfl
      table := rfl
      stored := by
        obtain ⟨more, rfl⟩ := kept
        rw [List.append_assoc, List.getElem?_append_right (Nat.le_refl _), Nat.sub_self]
        rfl }
  refine Gives.of_expr rfl (by decide) fun m deep => ?_
  have isX : Yields (call m) ⟨("x", .number x) :: curveScope scope cubic heap.length, [], later⟩
      (var "x") (.number x) := yields_var rfl
  unfold UnitCubic.eval
  rw [notIdentity, if_neg Bool.false_ne_true]
  refine Yields.choose (Yields.or (isX.binary (yields_whole (by decide)) rfl rfl) fun _ =>
    isX.binary (yields_whole (by decide)) rfl rfl) (fun _ => isX) fun _ => ?_
  have isT : Yields (call m) ⟨("x", .number x) :: curveScope scope cubic heap.length, [], later⟩
      (.call "tForX" [var "x"]) (.number (cubic.solve x)) :=
    Yields.call rfl searching.gives_solve deep (Yields.cons isX evalAll_nil)
  exact (inside.bezierAt _ _ _).yields (by omega) (Yields.cons isT
    (Yields.cons (yields_var rfl) (Yields.cons (yields_var rfl) evalAll_nil)))

theorem wellNamed_makerBody :
    wellNamed ["x1", "y1", "x2", "y2"] (makerBody : List (Stmt α)) = true := by
  cbv

/-- **The solver's function makes the curve of the control values that it is given.** -/
theorem makes_solver (library : ∀ heap, Library ⟨scope, [], heap⟩) (deep : 13 ≤ m) :
    ∃ function later, call m (.closure scope ["x1", "y1", "x2", "y2"] (.block makerBody))
        [.number cubic.x1, .number cubic.y1, .number cubic.x2, .number cubic.y2] heap =
          some (function, later) ∧
      heap <+: later ∧ Solves function later cubic := by
  obtain ⟨m, rfl⟩ : ∃ before, m = before + 1 := Nat.exists_eq_succ_of_ne_zero (by omega)
  have isIdentity : Yields (call m) ⟨makerScope scope cubic, [], heap⟩
      (.binary .and (.binary .equal (var "x1") (var "y1")) (.binary .equal (var "x2") (var "y2")))
      (.truth cubic.isIdentity) :=
    Yields.and (Yields.binary (yields_var rfl) (yields_var rfl) rfl rfl) fun _ =>
      Yields.binary (yields_var rfl) (yields_var rfl) rfl rfl
  cases identity : cubic.isIdentity with
  | true =>
    rw [identity] at isIdentity
    have result : Yields (call m) ⟨makerScope scope cubic, [], heap⟩ (.function ["x"] (var "x"))
        (.closure (makerScope scope cubic) ["x"] (.expr (var "x"))) := yields_function
    have returns : execAll (call m) m makerBody ⟨makerScope scope cubic, [], heap⟩ =
        some (.returned (.closure (makerScope scope cubic) ["x"] (.expr (var "x"))), _) :=
      execAll_returned (isIdentity.guarded.trans (simple_result result))
    refine ⟨_, _, call_returned rfl wellNamed_makerBody returns, List.prefix_rfl,
      fun later kept x => ?_⟩
    unfold UnitCubic.eval
    rw [identity, if_pos rfl]
    exact Gives.of_expr rfl (by decide) fun m deep => yields_var rfl
  | false =>
    rw [identity] at isIdentity
    have tabled : Library ⟨tabledScope scope cubic heap.length, [], heap⟩ := (library heap).tabled _
    have sees : Sees cubic ⟨tabledScope scope cubic heap.length, [], heap⟩ := ⟨tabled, rfl, rfl⟩
    have stored : exec (call m) m (.simple (.constant "table" (some .numbers) (.array [])))
        ⟨makerScope scope cubic, [], heap⟩ =
          some (.next, ⟨tabledScope scope cubic heap.length, [], heap ++ [tableOf cubic 0]⟩) := rfl
    have returns : execAll (call m) m makerBody ⟨makerScope scope cubic, [], heap⟩ =
        some (.returned (.closure (curveScope scope cubic heap.length) ["x"] (.expr curveBody)),
          ⟨curveScope scope cubic heap.length, [], heap ++ [tableOf cubic 11]⟩) := by
      refine Eq.trans (execAll_next isIdentity.guarded) ?_
      refine Eq.trans (execAll_next stored) ?_
      refine Eq.trans (execAll_next (sees.exec_fill rfl (by omega) (by omega))) ?_
      refine Eq.trans (execAll_next exec_localFunction) ?_
      exact execAll_returned (exec_result yields_function)
    exact ⟨_, _, call_returned rfl wellNamed_makerBody returns, List.prefix_append _ _,
      solves_curve library identity⟩

end Making

end Easing.Script
