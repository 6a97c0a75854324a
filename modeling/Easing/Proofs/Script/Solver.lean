/-
**The script of the solver computes unit cubics.**
-/
import Easing.Proofs.Script.Rules
import Easing.Curve.Branch

set_option linter.unusedSectionVars false

namespace Easing.Script

variable {α : Type} [Scalar α] [Counting α]

/-! ### The polynomial -/

section Polynomials

variable {scope : Scope α} {heap : Heap α}

theorem gives_coeffA (a1 a2 : α) :
    Gives 1 heap (.closure scope ["a1", "a2"] (.expr coeffABody)) [a1, a2]
      (Cubic.coeffA a1 a2) := by
  refine Gives.of_expr rfl (by decide) fun m _ => ?_
  exact ((yields_whole (by decide)).sub
    ((yields_whole (by decide)).mul (yields_var rfl))).add
    ((yields_whole (by decide)).mul (yields_var rfl))

theorem gives_coeffB (a1 a2 : α) :
    Gives 1 heap (.closure scope ["a1", "a2"] (.expr coeffBBody)) [a1, a2]
      (Cubic.coeffB a1 a2) := by
  refine Gives.of_expr rfl (by decide) fun m _ => ?_
  exact ((yields_whole (by decide)).mul (yields_var rfl)).sub
    ((yields_whole (by decide)).mul (yields_var rfl))

theorem gives_coeffC (a1 : α) :
    Gives 1 heap (.closure scope ["a1"] (.expr coeffCBody)) [a1] (Cubic.coeffC a1) := by
  refine Gives.of_expr rfl (by decide) fun m _ => ?_
  exact (yields_whole (by decide)).mul (yields_var rfl)

/-- The three coefficients are in sight. -/
structure Coefficients (state : State α) : Prop where
  a : ∀ a1 a2, Offers state "coeffA" 1 [a1, a2] (Cubic.coeffA a1 a2)
  b : ∀ a1 a2, Offers state "coeffB" 1 [a1, a2] (Cubic.coeffB a1 a2)
  c : ∀ a1, Offers state "coeffC" 1 [a1] (Cubic.coeffC a1)

/-- The names of the coefficients. -/
def coefficientNames : List String := ["coeffA", "coeffB", "coeffC"]

theorem Coefficients.of_agrees {state other : State α} (coefficients : Coefficients state)
    (agrees : Agrees coefficientNames state other) : Coefficients other where
  a a1 a2 := (coefficients.a a1 a2).of_agrees agrees (by decide)
  b a1 a2 := (coefficients.b a1 a2).of_agrees agrees (by decide)
  c a1 := (coefficients.c a1).of_agrees agrees (by decide)

/-- What is in sight of the value and the slope. -/
def polynomialState (scope : Scope α) (heap : Heap α) (t a1 a2 : α) : State α :=
  ⟨("t", .number t) :: ("a1", .number a1) :: ("a2", .number a2) :: scope, [], heap⟩

section Values

variable (coefficients : Coefficients ⟨scope, [], heap⟩) (t a1 a2 : α)

include coefficients

theorem Coefficients.yields {m : Nat} (deep : 1 ≤ m) :
    Yields (call m) (polynomialState scope heap t a1 a2) coeffA (.number (Cubic.coeffA a1 a2)) ∧
      Yields (call m) (polynomialState scope heap t a1 a2) coeffB
        (.number (Cubic.coeffB a1 a2)) ∧
      Yields (call m) (polynomialState scope heap t a1 a2) coeffC (.number (Cubic.coeffC a1)) := by
  have inside : Coefficients (polynomialState scope heap t a1 a2) :=
    coefficients.of_agrees (((agrees_constant (by decide)).trans
      (agrees_constant (by decide))).trans (agrees_constant (by decide)))
  have isA1 : Yields (call m) (polynomialState scope heap t a1 a2) (var "a1") (.number a1) :=
    yields_var rfl
  have isA2 : Yields (call m) (polynomialState scope heap t a1 a2) (var "a2") (.number a2) :=
    yields_var rfl
  have both := Yields.cons isA1 (Yields.cons isA2 evalAll_nil)
  exact ⟨(inside.a a1 a2).yields deep both, (inside.b a1 a2).yields deep both,
    (inside.c a1).yields deep (Yields.cons isA1 evalAll_nil)⟩

theorem gives_bezierAt :
    Gives 2 heap (.closure scope ["t", "a1", "a2"] (.expr bezierBody)) [t, a1, a2]
      (Cubic.value t a1 a2) := by
  refine Gives.of_expr rfl (by decide) fun m deep => ?_
  obtain ⟨isA, isB, isC⟩ := coefficients.yields t a1 a2 deep
  have isT : Yields (call m) (polynomialState scope heap t a1 a2) (var "t") (.number t) :=
    yields_var rfl
  exact ((((isA.mul isT).add isB).mul isT).add isC).mul isT

theorem gives_slopeAt :
    Gives 2 heap (.closure scope ["t", "a1", "a2"] (.expr slopeBody)) [t, a1, a2]
      (Cubic.slope t a1 a2) := by
  refine Gives.of_expr rfl (by decide) fun m deep => ?_
  obtain ⟨isA, isB, isC⟩ := coefficients.yields t a1 a2 deep
  have isT : Yields (call m) (polynomialState scope heap t a1 a2) (var "t") (.number t) :=
    yields_var rfl
  exact (((((yields_whole (by decide)).mul isA).mul isT).mul isT).add
    (((yields_whole (by decide)).mul isB).mul isT)).add isC

end Values

/-- The map from the unit interval. -/
theorem gives_map (value low high : α) :
    Gives 1 heap (.closure scope ["v", "inMin", "inMax", "outMin", "outMax"] (.expr mapBody))
      [value, 0, 1, low, high] (remap value 0 1 low high) := by
  have span : ¬((1 : α) - 0 == 0) = true := by
    rw [Counting.unit]
    exact Bool.false_ne_true
  unfold remap
  rw [if_neg span]
  refine Gives.of_expr rfl (by decide) fun m _ => ?_
  exact ((((yields_var rfl).sub (yields_var rfl)).mul ((yields_var rfl).sub (yields_var rfl))).div
    ((yields_var rfl).sub (yields_var rfl))).add (yields_var rfl)

end Polynomials

/-! ### The functions of the solver -/

/-- What the solver declares before the curves is in sight. -/
structure Library (state : State α) : Prop where
  tableSize : state.find? "TABLE_SIZE" = some (.number ((11 : Nat) : α))
  tableStep : state.find? "TABLE_STEP" = some (.number UnitCubic.step)
  map : ∀ value low high, Offers state "map" 1 [value, 0, 1, low, high] (remap value 0 1 low high)
  bezierAt : ∀ t a1 a2, Offers state "bezierAt" 2 [t, a1, a2] (Cubic.value t a1 a2)
  slopeAt : ∀ t a1 a2, Offers state "slopeAt" 2 [t, a1, a2] (Cubic.slope t a1 a2)

/-- The names that are used after their declaration. -/
def libraryNames : List String := ["TABLE_SIZE", "TABLE_STEP", "map", "bezierAt", "slopeAt"]

theorem Library.of_agrees {state other : State α} (library : Library state)
    (agrees : Agrees libraryNames state other) : Library other where
  tableSize := (agrees _ (by decide)).trans library.tableSize
  tableStep := (agrees _ (by decide)).trans library.tableStep
  map value low high := (library.map value low high).of_agrees agrees (by decide)
  bezierAt t a1 a2 := (library.bezierAt t a1 a2).of_agrees agrees (by decide)
  slopeAt t a1 a2 := (library.slopeAt t a1 a2).of_agrees agrees (by decide)

theorem Library.constant {scope locals : Scope α} {heap : Heap α} {name : String}
    {value : Value α} (library : Library ⟨scope, locals, heap⟩) (absent : name ∉ libraryNames) :
    Library ⟨(name, value) :: scope, locals, heap⟩ :=
  library.of_agrees (agrees_constant absent)

/-- The constants and the coefficients, in sight of what follows. -/
def coefficientScope (scope : Scope α) : Scope α :=
  let sized : Scope α :=
    ("TABLE_STEP", .number (((1 : Nat) : α) / (((11 : Nat) : α) - ((1 : Nat) : α)))) ::
      ("TABLE_SIZE", .number ((11 : Nat) : α)) :: scope
  let mapped : Scope α :=
    ("map", .closure sized ["v", "inMin", "inMax", "outMin", "outMax"] (.expr mapBody)) :: sized
  let first : Scope α := ("coeffA", .closure mapped ["a1", "a2"] (.expr coeffABody)) :: mapped
  let second : Scope α := ("coeffB", .closure first ["a1", "a2"] (.expr coeffBBody)) :: first
  ("coeffC", .closure second ["a1"] (.expr coeffCBody)) :: second

/-- All that is declared before the curves. -/
def libraryScope (scope : Scope α) : Scope α :=
  let valued : Scope α :=
    ("bezierAt", .closure (coefficientScope scope) ["t", "a1", "a2"] (.expr bezierBody)) ::
      coefficientScope scope
  ("slopeAt", .closure valued ["t", "a1", "a2"] (.expr slopeBody)) :: valued

theorem execAll_polynomials (scope : Scope α) {apply : Apply α} {rounds : Nat} {heap : Heap α} :
    execAll apply rounds polynomials ⟨scope, [], heap⟩ =
      some (.next, ⟨libraryScope scope, [], heap⟩) := by
  refine Eq.trans (execAll_next (exec_constant (yields_whole (by decide)) rfl)) ?_
  refine Eq.trans (execAll_next (exec_constant ((yields_whole (by decide)).div
    ((yields_var rfl).sub (yields_whole (by decide)))) rfl)) ?_
  refine Eq.trans (execAll_next exec_longFunction) ?_
  refine Eq.trans (execAll_next (exec_constant yields_function rfl)) ?_
  refine Eq.trans (execAll_next (exec_constant yields_function rfl)) ?_
  refine Eq.trans (execAll_next (exec_constant yields_function rfl)) ?_
  refine Eq.trans (execAll_next exec_longFunction) ?_
  refine Eq.trans (execAll_next exec_longFunction) ?_
  exact execAll_nil

/-- **The functions that are declared before the curves.** -/
theorem library_libraryScope (scope : Scope α) (heap : Heap α) :
    Library ⟨libraryScope scope, [], heap⟩ := by
  have step : ((1 : Nat) : α) / (((11 : Nat) : α) - ((1 : Nat) : α)) = UnitCubic.step :=
    congrArg (((1 : Nat) : α) / ·) (Counting.pred 10 (by decide))
  have coefficients : ∀ heap : Heap α, Coefficients ⟨coefficientScope scope, [], heap⟩ := by
    intro heap
    exact ⟨fun a1 a2 => ⟨_, rfl, fun heap => gives_coeffA a1 a2⟩,
      fun a1 a2 => ⟨_, rfl, fun heap => gives_coeffB a1 a2⟩,
      fun a1 => ⟨_, rfl, fun heap => gives_coeffC a1⟩⟩
  exact
    { tableSize := rfl
      tableStep := congrArg (some ∘ Value.number) step
      map := fun value low high => ⟨_, rfl, fun heap => gives_map value low high⟩
      bezierAt := fun t a1 a2 => ⟨_, rfl, fun heap => gives_bezierAt (coefficients heap) t a1 a2⟩
      slopeAt := fun t a1 a2 => ⟨_, rfl, fun heap =>
        gives_slopeAt ((coefficients heap).of_agrees (agrees_constant (by decide))) t a1 a2⟩ }

/-! ### The search for the parameter -/

/-- The table of a curve up to some knot: the x coordinates at the knots. -/
def tableOf (cubic : UnitCubic α) (count : Nat) : List (Value α) :=
  (List.range count).map fun index => .number (cubic.knotX index)

/-- What is seen of a curve inside the function that makes it. -/
structure Sees (cubic : UnitCubic α) (state : State α) : Prop where
  library : Library state
  x1 : state.find? "x1" = some (.number cubic.x1)
  x2 : state.find? "x2" = some (.number cubic.x2)

/-- The names that are seen. -/
def seenNames : List String := ["x1", "x2"] ++ libraryNames

/-- What the search sees of its curve. -/
structure Searching (cubic : UnitCubic α) (x : α) (address : Nat) (state : State α) : Prop extends
    Sees cubic state where
  x : state.find? "x" = some (.number x)
  table : state.find? "table" = some (.list address)
  stored : state.heap[address]? = some (tableOf cubic 11)

/-- The names that the search uses and does not declare. -/
def searchNames : List String := ["x", "table"] ++ seenNames

section Search

variable {cubic : UnitCubic α} {x : α} {address m rounds : Nat} {state other : State α}
  {scope locals : Scope α} {heap : Heap α}

theorem Sees.of_agrees (sees : Sees cubic state) (agrees : Agrees seenNames state other) :
    Sees cubic other where
  library := sees.library.of_agrees fun name member =>
    agrees name (List.mem_append_right _ member)
  x1 := (agrees _ (by decide)).trans sees.x1
  x2 := (agrees _ (by decide)).trans sees.x2

theorem Sees.yields_xAt (sees : Sees cubic state) (deep : 2 ≤ m) {t : Expr α} {a : α}
    (isT : Yields (call m) state t (.number a)) :
    Yields (call m) state (xAt t) (.number (cubic.xAt a)) :=
  (sees.library.bezierAt a cubic.x1 cubic.x2).yields deep
    (Yields.cons isT (Yields.cons (yields_var sees.x1)
      (Yields.cons (yields_var sees.x2) evalAll_nil)))

theorem Sees.yields_xSlope (sees : Sees cubic state) (deep : 2 ≤ m) {t : Expr α} {a : α}
    (isT : Yields (call m) state t (.number a)) :
    Yields (call m) state (xSlope t) (.number (cubic.xSlope a)) :=
  (sees.library.slopeAt a cubic.x1 cubic.x2).yields deep
    (Yields.cons isT (Yields.cons (yields_var sees.x1)
      (Yields.cons (yields_var sees.x2) evalAll_nil)))

theorem Searching.of_agrees (searching : Searching cubic x address state)
    (agrees : Agrees searchNames state other) (heap : other.heap = state.heap) :
    Searching cubic x address other where
  toSees := searching.toSees.of_agrees fun name member =>
    agrees name (List.mem_append_right _ member)
  x := (agrees _ (by decide)).trans searching.x
  table := (agrees _ (by decide)).trans searching.table
  stored := by rw [heap]; exact searching.stored

theorem Searching.constant {name : String} {value : Value α}
    (searching : Searching cubic x address ⟨scope, locals, heap⟩)
    (absent : name ∉ searchNames) :
    Searching cubic x address ⟨(name, value) :: scope, locals, heap⟩ :=
  searching.of_agrees (agrees_constant absent) rfl

theorem Searching.variable {name : String} {value : Value α}
    (searching : Searching cubic x address ⟨scope, locals, heap⟩)
    (absent : name ∉ searchNames) :
    Searching cubic x address ⟨scope, (name, value) :: locals, heap⟩ :=
  searching.of_agrees (agrees_variable absent) rfl

theorem Searching.yields_entry (searching : Searching cubic x address state) {apply : Apply α}
    {index : Expr α} {n : Nat} (within : n ≤ 10)
    (isIndex : Yields apply state index (.number (n : α))) :
    Yields apply state (.item (var "table") index) (.number (cubic.knotX n)) := by
  have length : (tableOf cubic 11).length = 11 := by
    rw [tableOf, List.length_map, List.length_range]
  refine Yields.item (yields_var searching.table) isIndex searching.stored (Nat.le_of_eq length) ?_
  rw [tableOf, List.getElem?_map, List.getElem?_range (by omega)]
  rfl

theorem Searching.yields_next (searching : Searching cubic x address state) {apply : Apply α}
    {index : Expr α} {n : Nat} (within : n + 1 ≤ 10)
    (isIndex : Yields apply state index (.number (n : α))) :
    Yields apply state (.item (var "table") (add index (whole 1)))
      (.number (cubic.knotX (n + 1))) := by
  refine searching.yields_entry within ?_
  rw [← Counting.succ n (by omega)]
  exact isIndex.add (yields_whole (by decide))

theorem Searching.yields_lastKnot (searching : Searching cubic x address state)
    {apply : Apply α} :
    Yields apply state (sub (var "TABLE_SIZE") (whole 1)) (.number ((10 : Nat) : α)) := by
  have last : ((11 : Nat) : α) - ((1 : Nat) : α) = ((10 : Nat) : α) := Counting.pred 10 (by decide)
  rw [← last]
  exact (yields_var searching.library.tableSize).sub (yields_whole (by decide))

/-! ### The interval of the table -/

theorem firstBeyond_bounds (cubic : UnitCubic α) (x : α) (index left : Nat) :
    index ≤ cubic.firstBeyond x index left ∧ cubic.firstBeyond x index left ≤ index + left := by
  induction left generalizing index with
  | zero => exact ⟨Nat.le_refl _, Nat.le_refl _⟩
  | succ left ih =>
    unfold UnitCubic.firstBeyond
    split
    · have bounds := ih (index + 1)
      omega
    · omega

/-- The test of the scan. -/
def scanTest : Expr α :=
  .binary .and (.binary .unequal (var "current") (sub (var "TABLE_SIZE") (whole 1)))
    (.binary .atMost (.item (var "table") (var "current")) (var "x"))

theorem Searching.yields_scanTest (searching : Searching cubic x address ⟨scope, [], heap⟩)
    {apply : Apply α} {index : Nat} (within : index ≤ 10) :
    Yields apply ⟨scope, [("current", .number (index : α))], heap⟩ scanTest
      (.truth (index != 10 && decide (cubic.knotX index ≤ x))) := by
  have inside : Searching cubic x address ⟨scope, [("current", .number (index : α))], heap⟩ :=
    searching.variable (by decide)
  have isCurrent : Yields apply ⟨scope, [("current", .number (index : α))], heap⟩ (var "current")
      (.number (index : α)) := yields_var rfl
  have same : ((index : α) != ((10 : Nat) : α)) = (index != 10) :=
    congrArg not (Counting.beq index (by omega) 10 (by decide))
  rw [← same]
  refine Yields.and (isCurrent.binary inside.yields_lastKnot rfl rfl) fun _ => ?_
  exact (inside.yields_entry within isCurrent).binary (yields_var inside.x) rfl rfl

/-- The scan finds the first knot beyond x. -/
theorem Searching.repeatWhile_scan (searching : Searching cubic x address ⟨scope, [], heap⟩)
    {apply : Apply α} (left index : Nat) (count : index + left = 10) (enough : left < rounds) :
    repeatWhile (holds apply scanTest) (Simple.exec apply (.increment "current")) rounds
        ⟨scope, [("current", .number (index : α))], heap⟩ =
      some (.next,
        ⟨scope, [("current", .number (cubic.firstBeyond x index left : α))], heap⟩) := by
  obtain ⟨rounds, rfl⟩ : ∃ before, rounds = before + 1 :=
    Nat.exists_eq_succ_of_ne_zero (by omega)
  have test : holds apply scanTest ⟨scope, [("current", .number (index : α))], heap⟩ =
      some (index != 10 && decide (cubic.knotX index ≤ x), _) :=
    holds_of_yields (searching.yields_scanTest (by omega))
  induction left generalizing index rounds with
  | zero =>
    obtain rfl : index = 10 := count
    exact repeatWhile_false test
  | succ left ih =>
    have notLast : (index != 10) = true := bne_iff_ne.mpr (by omega)
    rw [notLast, Bool.true_and] at test
    unfold UnitCubic.firstBeyond
    by_cases reached : cubic.knotX index ≤ x
    · rw [decide_eq_true reached] at test
      have next : Simple.exec apply (.increment "current")
          ⟨scope, [("current", .number (index : α))], heap⟩ =
          some (.next, ⟨scope, [("current", .number ((index + 1 : Nat) : α))], heap⟩) := by
        rw [← Counting.succ index (by omega)]
        rfl
      obtain ⟨rounds, rfl⟩ : ∃ before, rounds = before + 1 :=
        Nat.exists_eq_succ_of_ne_zero (by omega)
      rw [if_pos reached, repeatWhile_true test, repeatAfter_next next]
      exact ih (index + 1) (by omega) rounds (by omega)
        (holds_of_yields (searching.yields_scanTest (by omega)))
    · rw [decide_eq_false reached] at test
      rw [if_neg reached]
      exact repeatWhile_false test

/-- What is in sight once the interval of the table is found. -/
def bracketState (scope : Scope α) (heap : Heap α) (cubic : UnitCubic α) (x : α) : State α :=
  let index := cubic.bracket x
  { constants :=
      ("initialSlope", .number (cubic.xSlope (cubic.guess x index))) ::
        ("guess", .number (cubic.guess x index)) ::
        ("span", .number (cubic.knotX (index + 1) - cubic.knotX index)) ::
        ("start", .number (UnitCubic.knot index)) :: scope
    locals := [("current", .number (index : α))]
    heap := heap }

theorem Searching.execAll_bracketing (searching : Searching cubic x address ⟨scope, [], heap⟩)
    (deep : 2 ≤ m) (enough : 9 < rounds) :
    execAll (call m) rounds bracketing ⟨scope, [], heap⟩ =
      some (.next, bracketState scope heap cubic x) := by
  obtain ⟨above, below⟩ := firstBeyond_bounds cubic x 1 (UnitCubic.intervals - 1)
  have ten : UnitCubic.intervals - 1 = 9 := rfl
  have isNext : cubic.firstBeyond x 1 (UnitCubic.intervals - 1) = cubic.bracket x + 1 := by
    unfold UnitCubic.bracket
    omega
  have within : cubic.bracket x + 1 ≤ 10 := by omega
  unfold bracketState
  generalize cubic.bracket x = index at isNext within
  refine Eq.trans (execAll_next (exec_variable (yields_whole (by decide)))) ?_
  have scan : exec (call m) rounds (.loopOne scanTest (.increment "current"))
      ⟨scope, [("current", .number ((1 : Nat) : α))], heap⟩ =
        some (.next, ⟨scope, [("current", .number ((index + 1 : Nat) : α))], heap⟩) := by
    rw [exec, ← isNext]
    exact searching.repeatWhile_scan 9 1 rfl enough
  refine Eq.trans (execAll_next scan) ?_
  have back : exec (call m) rounds (.simple (.decrement "current"))
      ⟨scope, [("current", .number ((index + 1 : Nat) : α))], heap⟩ =
        some (.next, ⟨scope, [("current", .number (index : α))], heap⟩) := by
    rw [← Counting.pred index (by omega)]
    rw [exec]
    rfl
  refine Eq.trans (execAll_next back) ?_
  have found : Searching cubic x address ⟨scope, [("current", .number (index : α))], heap⟩ :=
    searching.variable (by decide)
  refine Eq.trans (execAll_next (exec_constant
    ((yields_var rfl).mul (yields_var found.library.tableStep)) rfl)) ?_
  have started : Searching cubic x address
      ⟨("start", .number (UnitCubic.knot index)) :: scope,
        [("current", .number (index : α))], heap⟩ := found.constant (by decide)
  refine Eq.trans (execAll_next (exec_constant
    ((started.yields_next within (yields_var rfl)).sub
      (started.yields_entry (by omega) (yields_var rfl))) rfl)) ?_
  have spanned : Searching cubic x address
      ⟨("span", .number (cubic.knotX (index + 1) - cubic.knotX index)) ::
          ("start", .number (UnitCubic.knot index)) :: scope,
        [("current", .number (index : α))], heap⟩ := started.constant (by decide)
  have isGuess : Yields (call m)
      ⟨("span", .number (cubic.knotX (index + 1) - cubic.knotX index)) ::
          ("start", .number (UnitCubic.knot index)) :: scope,
        [("current", .number (index : α))], heap⟩
      (add (var "start")
        (mul
          (.choose (.binary .unequal (var "span") (whole 0))
            (div (sub (var "x") (.item (var "table") (var "current"))) (var "span")) (whole 0))
          (var "TABLE_STEP")))
      (.number (cubic.guess x index)) := by
    refine (yields_var rfl).add (Yields.mul ?_ (yields_var spanned.library.tableStep))
    refine Yields.choose ((yields_var rfl).binary (yields_whole (by decide)) rfl rfl)
      (fun _ => ?_) (fun _ => yields_whole (by decide))
    exact ((yields_var spanned.x).sub
      (spanned.yields_entry (by omega) (yields_var rfl))).div (yields_var rfl)
  refine Eq.trans (execAll_next (exec_constant isGuess rfl)) ?_
  have guessed : Searching cubic x address
      ⟨("guess", .number (cubic.guess x index)) ::
          ("span", .number (cubic.knotX (index + 1) - cubic.knotX index)) ::
          ("start", .number (UnitCubic.knot index)) :: scope,
        [("current", .number (index : α))], heap⟩ := spanned.constant (by decide)
  exact Eq.trans (execAll_next (exec_constant
    (guessed.yields_xSlope deep (yields_var rfl)) rfl)) execAll_nil

/-! ### Newton's method -/

/-- Where a step of Newton's method begins. -/
def newtonState (scope : Scope α) (heap : Heap α) (current : α) (index : Nat) (t : α) : State α :=
  ⟨scope, [("i", .number (index : α)), ("t", .number t), ("current", .number current)], heap⟩

/-- One step of Newton's method. -/
def newtonRound : List (Stmt α) :=
  [ .simple (.constant "slope" none (xSlope (var "t"))),
    .guarded (.binary .equal (var "slope") (whole 0)) (.result (var "t")),
    .simple (.subtract "t" (div (sub (xAt (var "t")) (var "x")) (var "slope"))) ]

/-- The steps of Newton's method from the guess, and their result. -/
def newtonBody : List (Stmt α) :=
  [ .simple (.variable "t" (var "guess")),
    .count "i" (whole UnitCubic.newtonSteps) newtonRound,
    .simple (.result (var "t")) ]

theorem wellNamed_newtonRound : wellNamed [] (newtonRound : List (Stmt α)) = true := by
  cbv

theorem wellNamed_newtonBody : wellNamed [] (newtonBody : List (Stmt α)) = true := by
  cbv

/-- The test of the loop around it. -/
def newtonTest : Expr α := .binary .less (.variable "i") (whole UnitCubic.newtonSteps)

section Newton

variable (searching : Searching cubic x address ⟨scope, [], heap⟩) (deep : 2 ≤ m) (current : α)

include searching deep

theorem Searching.exec_newtonRound (index : Nat) (t : α) :
    inBlock (execAll (call m) rounds newtonRound) (newtonState scope heap current index t) =
      if cubic.xSlope t == 0 then
        some (.returned (.number t), newtonState scope heap current index t)
      else
        some (.next, newtonState scope heap current index
          (t - (cubic.xAt t - x) / cubic.xSlope t)) := by
  have counted : Searching cubic x address (newtonState scope heap current index t) :=
    ((searching.variable (by decide)).variable (by decide)).variable (by decide)
  have sloped : Searching cubic x address
      ⟨("slope", .number (cubic.xSlope t)) :: scope,
        [("i", .number (index : α)), ("t", .number t), ("current", .number current)], heap⟩ :=
    counted.constant (by decide)
  have isFlat : Yields (call m)
      ⟨("slope", .number (cubic.xSlope t)) :: scope,
        [("i", .number (index : α)), ("t", .number t), ("current", .number current)], heap⟩
      (.binary .equal (var "slope") (whole 0)) (.truth (cubic.xSlope t == 0)) :=
    (yields_var rfl).binary (yields_whole (by decide)) rfl rfl
  cases flat : cubic.xSlope t == 0 with
  | true =>
    rw [flat] at isFlat
    have run : execAll (call m) rounds newtonRound (newtonState scope heap current index t) =
        some (.returned (.number t), ⟨("slope", .number (cubic.xSlope t)) :: scope,
          [("i", .number (index : α)), ("t", .number t), ("current", .number current)], heap⟩) := by
      refine Eq.trans (execAll_next (exec_constant
        (counted.yields_xSlope deep (yields_var rfl)) rfl)) (execAll_returned ?_)
      rw [isFlat.guarded, if_pos rfl]
      exact simple_result (yields_var rfl)
    exact inBlock_of run rfl
  | false =>
    rw [flat] at isFlat
    have run : execAll (call m) rounds newtonRound (newtonState scope heap current index t) =
        some (.next, ⟨("slope", .number (cubic.xSlope t)) :: scope,
          [("i", .number (index : α)),
            ("t", .number (t - (cubic.xAt t - x) / cubic.xSlope t)),
            ("current", .number current)], heap⟩) := by
      refine Eq.trans (execAll_next (exec_constant
        (counted.yields_xSlope deep (yields_var rfl)) rfl)) ?_
      refine Eq.trans (execAll_next (isFlat.guarded)) ?_
      exact Eq.trans (execAll_next (exec_subtract (((sloped.yields_xAt deep (yields_var rfl)).sub
        (yields_var sloped.x)).div (yields_var rfl)))) execAll_nil
    exact inBlock_of run rfl

theorem Searching.yields_newtonTest {index : Nat} (within : index ≤ 4) (t : α) :
    Yields (call m) (newtonState scope heap current index t) newtonTest
      (.truth (decide (index < 4))) := by
  have same : decide ((index : α) < ((4 : Nat) : α)) = decide (index < 4) :=
    decide_eq_decide.mpr (Counting.lt index (by omega) 4 (by decide))
  rw [← same]
  exact Yields.binary (yields_var rfl) (yields_whole (by decide)) rfl rfl

/-- The steps that are left lead to the same parameter, or return it. -/
theorem Searching.repeatWhile_newton (limit steps index : Nat) (t : α) (count : index + steps = 4)
    (enough : steps < rounds) :
    (∃ last, repeatWhile (holds (call m) newtonTest)
        (counted "i" (inBlock (execAll (call m) limit newtonRound))) rounds
        (newtonState scope heap current index t) =
          some (.returned (.number (cubic.newton x steps t)), last) ∧ last.heap = heap) ∨
      repeatWhile (holds (call m) newtonTest)
        (counted "i" (inBlock (execAll (call m) limit newtonRound))) rounds
        (newtonState scope heap current index t) =
          some (.next, newtonState scope heap current 4 (cubic.newton x steps t)) := by
  induction steps generalizing index t rounds with
  | zero =>
    obtain rfl : index = 4 := count
    obtain ⟨rounds, rfl⟩ : ∃ before, rounds = before + 1 :=
      Nat.exists_eq_succ_of_ne_zero (by omega)
    exact .inr (repeatWhile_false (holds_of_yields
      (searching.yields_newtonTest deep current (Nat.le_refl 4) t)))
  | succ steps ih =>
    obtain ⟨rounds, rfl⟩ : ∃ before, rounds = before + 1 :=
      Nat.exists_eq_succ_of_ne_zero (by omega)
    have test := holds_of_yields
      (searching.yields_newtonTest deep current (by omega : index ≤ 4) t)
    rw [decide_eq_true (by omega : index < 4)] at test
    have round : inBlock (execAll (call m) limit newtonRound)
        (newtonState scope heap current index t) = _ :=
      searching.exec_newtonRound deep current index t
    rw [repeatWhile_true test]
    unfold UnitCubic.newton
    dsimp only
    by_cases flat : (cubic.xSlope t == 0) = true
    · rw [if_pos flat] at round
      rw [if_pos flat]
      exact .inl ⟨_, repeatAfter_returned (counted_returned round), rfl⟩
    · rw [if_neg flat] at round
      rw [if_neg flat]
      have next : counted "i" (inBlock (execAll (call m) limit newtonRound))
          (newtonState scope heap current index t) =
          some (.next, newtonState scope heap current (index + 1)
            (t - (cubic.xAt t - x) / cubic.xSlope t)) := by
        rw [counted_next round]
        unfold newtonState
        rw [← Counting.succ index (by omega)]
        rfl
      rw [repeatAfter_next next]
      exact ih (index + 1) _ (by omega) (by omega)

/-- Newton's method, where the curve is steep, from a guess that is in sight. -/
theorem Searching.exec_newton {slope guess : α} (enough : 4 < rounds)
    (isSlope : scope.lookup "initialSlope" = some (.number slope))
    (isGuess : scope.lookup "guess" = some (.number guess))
    (steep : UnitCubic.newtonSlope ≤ slope) :
    ∃ last, exec (call m) rounds newton ⟨scope, [("current", .number current)], heap⟩ =
      some (.returned (.number (cubic.newton x UnitCubic.newtonSteps guess)), last) ∧
        last.heap = heap := by
  have test : Yields (call m) ⟨scope, [("current", .number current)], heap⟩
      (.binary .atLeast (var "initialSlope") (.literal UnitCubic.newtonSlope)) (.truth true) := by
    rw [← decide_eq_true steep]
    exact Yields.binary (yields_var isSlope) (yields_literal Counting.isFinite_newtonSlope) rfl rfl
  have start : exec (call m) rounds (.simple (.variable "t" (var "guess")))
      ⟨scope, [("current", .number current)], heap⟩ =
        some (.next, ⟨scope, [("t", .number guess), ("current", .number current)], heap⟩) :=
    exec_variable (yields_var isGuess)
  have loop : ∀ {outcome last}, repeatWhile (holds (call m) newtonTest)
        (counted "i" (inBlock (execAll (call m) rounds newtonRound))) rounds
        (newtonState scope heap current 0 guess) = some (outcome, last) →
      exec (call m) rounds (.count "i" (whole UnitCubic.newtonSteps) newtonRound)
        ⟨scope, [("t", .number guess), ("current", .number current)], heap⟩ =
          some (outcome,
            State.leave ⟨scope, [("t", .number guess), ("current", .number current)], heap⟩ last) := by
    intro outcome last run
    rw [exec_count wellNamed_newtonRound]
    unfold inBlock
    exact congrArg (Option.map _) run
  have result : ∃ last,
      execAll (call m) rounds newtonBody ⟨scope, [("current", .number current)], heap⟩ =
        some (.returned (.number (cubic.newton x UnitCubic.newtonSteps guess)), last) ∧
          last.heap = heap := by
    unfold newtonBody
    rw [execAll_next start]
    rcases searching.repeatWhile_newton deep current rounds 4 0 guess rfl enough with
      ⟨last, returns, same⟩ | goesOn
    · exact ⟨_, execAll_returned (loop returns), same⟩
    · exact ⟨_,
        Eq.trans (execAll_next (loop goesOn)) (execAll_returned (exec_result (yields_var rfl))),
        rfl⟩
  obtain ⟨last, returns, kept⟩ := result
  obtain ⟨last, returns, same⟩ := inBlock_returned returns
  exact ⟨last, (test.block wellNamed_newtonBody).trans returns, same.trans kept⟩

/-- Where the curve is not steep, nothing happens. -/
theorem Searching.exec_newton_flat {slope : α}
    (isSlope : scope.lookup "initialSlope" = some (.number slope))
    (notSteep : ¬UnitCubic.newtonSlope ≤ slope) :
    exec (call m) rounds newton ⟨scope, [("current", .number current)], heap⟩ =
      some (.next, ⟨scope, [("current", .number current)], heap⟩) := by
  have test : Yields (call m) ⟨scope, [("current", .number current)], heap⟩
      (.binary .atLeast (var "initialSlope") (.literal UnitCubic.newtonSlope)) (.truth false) := by
    rw [← decide_eq_false notSteep]
    exact Yields.binary (yields_var isSlope) (yields_literal Counting.isFinite_newtonSlope) rfl rfl
  exact test.block wellNamed_newtonBody

end Newton

/-! ### Halving the interval -/

/-- Where a halving begins. -/
def bisectState (scope : Scope α) (heap : Heap α) (current : α) (index : Nat) (t low high : α) :
    State α :=
  ⟨scope, [("i", .number (index : α)), ("t", .number t), ("hi", .number high),
    ("lo", .number low), ("current", .number current)], heap⟩

/-- One halving. -/
def bisectRound : List (Stmt α) :=
  [ .simple (.assign "t" (add (var "lo") (div (sub (var "hi") (var "lo")) (whole 2)))),
    .simple (.constant "error" none (sub (xAt (var "t")) (var "x"))),
    .either (.binary .greater (var "error") (whole 0)) (.assign "hi" (var "t"))
      (.assign "lo" (var "t")),
    .guarded
      (.binary .atMost (.builtin .abs [var "error"]) (.literal UnitCubic.bisectTolerance))
      .leave ]

theorem wellNamed_bisectRound : wellNamed [] (bisectRound : List (Stmt α)) = true := by
  cbv

/-- The test after it. -/
def bisectTest : Expr α := .binary .less (.incremented "i") (whole UnitCubic.bisectSteps)

section Bisection

variable (searching : Searching cubic x address ⟨scope, [], heap⟩) (deep : 2 ≤ m) (current : α)

include searching deep

theorem Searching.exec_bisectRound (index : Nat) (t low high middle error : α)
    (isMiddle : low + (high - low) / 2 = middle) (isError : cubic.xAt middle - x = error) :
    inBlock (execAll (call m) rounds bisectRound)
        (bisectState scope heap current index t low high) =
      some (if Scalar.abs error ≤ UnitCubic.bisectTolerance then .left else .next,
        bisectState scope heap current index middle (if 0 < error then low else middle)
          (if 0 < error then middle else high)) := by
  have halved : exec (call m) rounds
      (.simple (.assign "t" (add (var "lo") (div (sub (var "hi") (var "lo")) (whole 2)))))
      (bisectState scope heap current index t low high) =
        some (.next, bisectState scope heap current index middle low high) := by
    rw [← isMiddle]
    exact simple_assign ((yields_var rfl).add (((yields_var rfl).sub (yields_var rfl)).div
      (yields_whole (by decide))))
  have inside : Searching cubic x address
      (bisectState scope heap current index middle low high) :=
    ((((searching.variable (by decide)).variable (by decide)).variable (by decide)).variable
      (by decide)).variable (by decide)
  have measured : exec (call m) rounds
      (.simple (.constant "error" none (sub (xAt (var "t")) (var "x"))))
      (bisectState scope heap current index middle low high) =
        some (.next, bisectState (("error", .number error) :: scope) heap current index middle
          low high) := by
    rw [← isError]
    exact exec_constant ((inside.yields_xAt deep (yields_var rfl)).sub (yields_var inside.x)) rfl
  have chosen : exec (call m) rounds
      (.either (.binary .greater (var "error") (whole 0)) (.assign "hi" (var "t"))
        (.assign "lo" (var "t")))
      (bisectState (("error", .number error) :: scope) heap current index middle low high) =
        some (.next, bisectState (("error", .number error) :: scope) heap current index middle
          (if 0 < error then low else middle) (if 0 < error then middle else high)) := by
    have test : Yields (call m)
        (bisectState (("error", .number error) :: scope) heap current index middle low high)
        (.binary .greater (var "error") (whole 0)) (.truth (decide (0 < error))) :=
      Yields.binary (yields_var rfl) (yields_whole (by decide)) rfl rfl
    rw [test.either]
    by_cases beyond : 0 < error
    · rw [if_pos (decide_eq_true beyond), if_pos beyond, if_pos beyond]
      exact simple_assign (yields_var rfl)
    · rw [decide_eq_false beyond, if_neg Bool.false_ne_true, if_neg beyond, if_neg beyond]
      exact simple_assign (yields_var rfl)
  generalize (if 0 < error then low else middle) = low', (if 0 < error then middle else high) = high'
    at chosen ⊢
  have tested : exec (call m) rounds
      (.guarded
        (.binary .atMost (.builtin .abs [var "error"]) (.literal UnitCubic.bisectTolerance))
        .leave)
      (bisectState (("error", .number error) :: scope) heap current index middle low' high') =
        some (if Scalar.abs error ≤ UnitCubic.bisectTolerance then .left else .next,
          bisectState (("error", .number error) :: scope) heap current index middle low' high') := by
    have isSize : Yields (call m)
        (bisectState (("error", .number error) :: scope) heap current index middle low' high')
        (.builtin .abs [var "error"]) (.number (Scalar.abs error)) := rfl
    rw [(isSize.binary (yields_literal Counting.isFinite_bisectTolerance) rfl rfl).guarded]
    by_cases near : Scalar.abs error ≤ UnitCubic.bisectTolerance
    · rw [if_pos near, if_pos (decide_eq_true near)]
      rfl
    · rw [if_neg near, decide_eq_false near, if_neg Bool.false_ne_true]
  have run : execAll (call m) rounds bisectRound
      (bisectState scope heap current index t low high) = some (_,
        bisectState (("error", .number error) :: scope) heap current index middle low' high') :=
    ((execAll_next halved).trans (execAll_next measured)).trans
      ((execAll_next chosen).trans ((execAll_single _).trans tested))
  exact inBlock_of run rfl

omit searching deep

theorem holds_bisectTest {apply : Apply α} {index : Nat} (within : index ≤ 9) (t low high : α) :
    holds apply bisectTest (bisectState scope heap current index t low high) =
      some (decide (index + 1 < 10), bisectState scope heap current (index + 1) t low high) := by
  have same : decide (((index + 1 : Nat) : α) < ((10 : Nat) : α)) = decide (index + 1 < 10) :=
    decide_eq_decide.mpr (Counting.lt (index + 1) (by omega) 10 (by decide))
  have counted : eval apply (.incremented "i") (bisectState scope heap current index t low high) =
      some (.number ((index + 1 : Nat) : α),
        bisectState scope heap current (index + 1) t low high) := by
    unfold bisectState
    rw [← Counting.succ index (by omega)]
    rfl
  have bound : Yields apply (bisectState scope heap current (index + 1) t low high)
      (whole UnitCubic.bisectSteps) (.number ((10 : Nat) : α)) := yields_whole (by decide)
  unfold Yields at bound
  rw [← same]
  unfold holds bisectTest
  rw [eval_binary, counted, Option.bind_some]
  dsimp only
  rw [bound]
  rfl

include searching deep

/-- The halvings that are left lead to the same parameter. -/
theorem Searching.repeatAfter_bisect (limit steps index : Nat) (t low high : α)
    (count : index + steps = 9) (enough : steps < rounds) :
    ∃ index' low' high', repeatAfter (holds (call m) bisectTest)
        (inBlock (execAll (call m) limit bisectRound)) rounds
        (bisectState scope heap current index t low high) =
      some (.next, bisectState scope heap current index' (cubic.bisect x steps low high)
        low' high') := by
  induction steps generalizing index t low high rounds with
  | zero =>
    obtain ⟨rounds, rfl⟩ : ∃ before, rounds = before + 1 :=
      Nat.exists_eq_succ_of_ne_zero (by omega)
    obtain rfl : index = 9 := count
    have round : inBlock (execAll (call m) limit bisectRound)
        (bisectState scope heap current 9 t low high) = _ :=
      searching.exec_bisectRound deep current 9 t low high _ _ rfl rfl
    unfold UnitCubic.bisect
    dsimp only
    generalize low + (high - low) / 2 = middle at round ⊢
    generalize cubic.xAt middle - x = error at round ⊢
    by_cases near : Scalar.abs error ≤ UnitCubic.bisectTolerance
    · rw [if_pos near] at round
      rw [if_pos near]
      exact ⟨_, _, _, repeatAfter_left round⟩
    · rw [if_neg near] at round
      rw [if_neg near]
      exact ⟨_, _, _, (repeatAfter_next round).trans
        (repeatWhile_false (holds_bisectTest current (Nat.le_refl 9) _ _ _))⟩
  | succ steps ih =>
    obtain ⟨rounds, rfl⟩ : ∃ before, rounds = before + 1 :=
      Nat.exists_eq_succ_of_ne_zero (by omega)
    have round : inBlock (execAll (call m) limit bisectRound)
        (bisectState scope heap current index t low high) = _ :=
      searching.exec_bisectRound deep current index t low high _ _ rfl rfl
    unfold UnitCubic.bisect
    dsimp only
    generalize low + (high - low) / 2 = middle at round ⊢
    generalize cubic.xAt middle - x = error at round ⊢
    by_cases near : Scalar.abs error ≤ UnitCubic.bisectTolerance
    · rw [if_pos near] at round
      rw [if_pos near]
      exact ⟨_, _, _, repeatAfter_left round⟩
    · rw [if_neg near] at round
      rw [if_neg near, repeatAfter_next round]
      have test : ∀ low high, holds (call m) bisectTest
          (bisectState scope heap current index middle low high) =
            some (true, bisectState scope heap current (index + 1) middle low high) := by
        intro low high
        rw [holds_bisectTest current (by omega), decide_eq_true (by omega)]
      rw [repeatWhile_true (test _ _)]
      by_cases beyond : 0 < error
      · rw [if_pos beyond, if_pos beyond, if_pos beyond]
        exact ih (index + 1) _ _ _ (by omega) (by omega)
      · rw [if_neg beyond, if_neg beyond, if_neg beyond]
        exact ih (index + 1) _ _ _ (by omega) (by omega)

/-- Halving, where the curve is not steep, from a bracket that is in sight. -/
theorem Searching.execAll_bisection {slope guess start : α} (enough : 9 < rounds)
    (isSlope : scope.lookup "initialSlope" = some (.number slope))
    (isGuess : scope.lookup "guess" = some (.number guess))
    (isStart : scope.lookup "start" = some (.number start)) :
    ∃ last, execAll (call m) rounds bisection ⟨scope, [("current", .number current)], heap⟩ =
      some (.returned (.number (if slope == 0 then guess
        else cubic.bisect x (UnitCubic.bisectSteps - 1) start (start + UnitCubic.step))), last) ∧
      last.heap = heap := by
  have test : Yields (call m) ⟨scope, [("current", .number current)], heap⟩
      (.binary .equal (var "initialSlope") (whole 0)) (.truth (slope == 0)) :=
    Yields.binary (yields_var isSlope) (yields_whole (by decide)) rfl rfl
  cases flat : slope == 0 with
  | true =>
    rw [flat] at test
    exact ⟨_, execAll_returned (test.guarded.trans (simple_result (yields_var isGuess))), rfl⟩
  | false =>
    rw [flat] at test
    have library : Library
        ⟨scope, [("lo", .number start), ("current", .number current)], heap⟩ :=
      ((searching.variable (by decide)).variable (by decide)).library
    have isHigh : Yields (call m) ⟨scope, [("lo", .number start), ("current", .number current)],
        heap⟩ (add (var "start") (var "TABLE_STEP")) (.number (start + UnitCubic.step)) :=
      Yields.add (yields_var isStart) (yields_var library.tableStep)
    obtain ⟨index, low, high, halved⟩ := searching.repeatAfter_bisect deep current rounds 9 0 start
      start (start + UnitCubic.step) rfl enough
    have result : Yields (call m) (bisectState scope heap current index
        (cubic.bisect x 9 start (start + UnitCubic.step)) low high) (var "t")
        (.number (cubic.bisect x 9 start (start + UnitCubic.step))) := yields_var rfl
    rw [if_neg Bool.false_ne_true]
    refine ⟨bisectState scope heap current index
      (cubic.bisect x 9 start (start + UnitCubic.step)) low high, ?_, rfl⟩
    refine Eq.trans (execAll_next test.guarded) ?_
    refine Eq.trans (execAll_next (exec_variable (yields_var isStart))) ?_
    refine Eq.trans (execAll_next (exec_variable isHigh)) ?_
    refine Eq.trans (execAll_next (exec_variable (yields_var rfl))) ?_
    refine Eq.trans (execAll_next (exec_variable (yields_whole (by decide)))) ?_
    refine Eq.trans (execAll_next ((exec_loopAfter wellNamed_bisectRound).trans halved)) ?_
    exact execAll_returned (exec_result result)

end Bisection

/-! ### The parameter -/

theorem wellNamed_searchBody : wellNamed ["x"] (searchBody : List (Stmt α)) = true := by
  cbv

/-- **The search of the script finds the parameter of the solver.** -/
theorem Searching.gives_solve
    (searching : Searching cubic x address ⟨("x", .number x) :: scope, [], heap⟩) :
    Gives 11 heap (.closure scope ["x"] (.block searchBody)) [x] (cubic.solve x) := by
  refine Gives.of_block rfl wellNamed_searchBody fun m deep => ?_
  have bracketed : execAll (call m) m bracketing ⟨("x", .number x) :: scope, [], heap⟩ = _ :=
    searching.execAll_bracketing (by omega) deep
  have found : Searching cubic x address
      ⟨(bracketState (("x", .number x) :: scope) heap cubic x).constants, [], heap⟩ :=
    (((searching.constant (by decide)).constant (by decide)).constant (by decide)).constant
      (by decide)
  unfold searchBody UnitCubic.solve
  dsimp only
  rw [List.append_assoc]
  refine Exists.imp (fun last => And.imp_left (execAll_append_next bracketed).trans) ?_
  by_cases steep : UnitCubic.newtonSlope ≤ cubic.xSlope (cubic.guess x (cubic.bracket x))
  · rw [if_pos steep]
    obtain ⟨last, returns, same⟩ := found.exec_newton (by omega : 2 ≤ m) (cubic.bracket x : α)
      (by omega : 4 < m) rfl rfl steep
    exact ⟨last, execAll_returned returns, same⟩
  · rw [if_neg steep]
    have skips : exec (call m) m newton (bracketState _ heap cubic x) = _ :=
      found.exec_newton_flat (by omega : 2 ≤ m) (cubic.bracket x : α) rfl steep
    obtain ⟨last, returns, same⟩ := found.execAll_bisection (by omega : 2 ≤ m) (cubic.bracket x : α)
      deep
      rfl rfl rfl
    exact ⟨last, (execAll_next skips).trans returns, same⟩

end Search

end Easing.Script
