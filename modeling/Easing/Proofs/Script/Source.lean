/-
**The source of an exact compile runs as the curve.**

* `decimalLiteral?`: the double that a decimal literal stands for; `denotes_plain`: every finite
  double is written as a literal that stands for it.
* `core_script_embeds_iff`: where the solver stands in a script: at the start, when some joint is
  curved.
* `Prepared`: the curve of a joint is declared once, before all results, from the control points of
  its solver; `callees_branchValue`: nothing else is called but the map.
* `printable_of_built`: a curve that was built can be run, when its control values are finite.
* `compileExact_source_runs`: all of it, for doubles.
-/
import Easing.Proofs.Decimal.ReadBack
import Easing.Proofs.Script.Curve
import Easing.Proofs.Script.ReadBack

set_option linter.unusedSectionVars false

namespace Easing

namespace Script

/-! ### Numbers -/

section Numbers

open Decimal (AllDigits Spelling ofDigits)

/-- The double that a decimal literal stands for, which is the nearest one. A literal is made of
digits, perhaps with a point and more digits, and no zero stands before its other whole digits. -/
def decimalLiteral? (text : List Char) : Option Float :=
  let (whole, fraction) := Decimal.cut '.' text
  if whole ≠ [] ∧ (whole.head? = some '0' → whole.tail = []) ∧ whole.all Char.isDigit ∧
      fraction.all Char.isDigit then
    some (Decimal.Scaled.toFloat ⟨ofDigits (whole ++ fraction), -fraction.length⟩)
  else none

/-- The decimal that a spelling without an exponent mark stands for. -/
def decimalOf (s : Spelling) : Decimal.Scaled :=
  ⟨ofDigits (s.whole ++ s.fraction), -s.fraction.length⟩

theorem value_decimalOf {s : Spelling} (plain : s.exponent = none) :
    (decimalOf s).value = s.value := by
  rw [Decimal.Scaled.value, Spelling.value, plain, Option.getD_none, zero_sub]
  rfl

theorem decimalLiteral_text {s : Spelling} (plain : s.exponent = none) :
    decimalLiteral? s.text = some (decimalOf s).toFloat := by
  have noPoint : '.' ∉ s.whole := s.wholeDigits.not_mem rfl
  have parts : Decimal.cut '.' s.text = (s.whole, s.fraction) := by
    rw [Spelling.text, plain, Spelling.markText, List.append_nil, Spelling.pointText]
    split
    next none => rw [none, List.append_nil, Decimal.cut_absent noPoint]
    next => exact Decimal.cut_append noPoint _
  have first : s.whole.head? = some '0' → s.whole.tail = [] := by
    intro zero
    cases whole : s.whole with
    | nil => rfl
    | cons c rest =>
      rw [whole] at zero
      cases zero
      exact s.plain rest whole
  rw [decimalLiteral?, parts]
  exact if_pos ⟨s.nonempty, first, List.all_eq_true.mpr s.wholeDigits,
    List.all_eq_true.mpr s.fractionDigits⟩

/-- A number begins with a digit and goes on with digits and a point. -/
theorem exists_cons_text {s : Spelling} (plain : s.exponent = none) :
    ∃ c part, s.text = c :: part ∧ c.isDigit = true ∧
      ∀ other ∈ part, isPart other = true ∨ other = '.' := by
  obtain ⟨c, whole, isWhole⟩ := List.exists_cons_of_ne_nil s.nonempty
  have digits := s.wholeDigits
  rw [isWhole] at digits
  have isDigit (other : Char) (digit : other.isDigit = true) : isPart other = true := by
    rw [isPart, digit, Bool.or_true]
  refine ⟨c, whole ++ Spelling.pointText s.fraction, ?_, digits c List.mem_cons_self, ?_⟩
  · rw [Spelling.text, plain, Spelling.markText, List.append_nil, isWhole, List.cons_append]
  · intro other member
    rcases List.mem_append.mp member with inside | inside
    · exact .inl (isDigit other (digits other (List.mem_cons_of_mem c inside)))
    · unfold Spelling.pointText at inside
      split at inside
      · cases inside
      · rcases List.mem_cons.mp inside with point | fraction
        · exact .inr point
        · exact .inl (isDigit other (s.fractionDigits other fraction))

/-- **Every finite double is written as a literal that stands for it**, with a minus before it when
it is negative. -/
theorem denotes_plain {a : Float} (finite : Scalar.isFinite a = true) :
    Denotes decimalLiteral? (Numeral.plain a).toList a := by
  obtain ⟨negative, s, isText, kind⟩ := Decimal.Layout.write_spells Decimal.plainLayout finite
  have isText : (Numeral.plain a).toList = (Decimal.Layout.sign negative).toList ++ s.text := isText
  have plain : s.exponent = none := by
    cases mark : s.exponent with
    | none => rfl
    | some exponent =>
      have member : 'e' ∈ (Numeral.plain a).toList := by
        rw [isText, Spelling.text, mark, Spelling.markText]
        simp
      exact absurd member ((numberText_plain a).not_mem rfl (by decide))
  have back : Decimal.readFloat negative (decimalOf s) = a := by
    have value := value_decimalOf plain
    rcases kind with ⟨kind, zero⟩ | ⟨m, kind, -, near⟩
    · refine Decimal.readFloat_zero kind ?_
      rw [zero] at value
      have power : (10 : ℝ) ^ (decimalOf s).place ≠ 0 := by positivity
      exact_mod_cast (mul_eq_zero.mp value).resolve_right power
    · exact Decimal.readFloat_of_rounded kind (by rw [value, near])
  obtain ⟨c, part, isCons, digit, isParts⟩ := exists_cons_text plain
  have value := decimalLiteral_text plain
  rw [isCons] at value
  rw [isText, isCons, ← back]
  cases negative with
  | false => exact .plus digit isParts value
  | true => exact .minus digit isParts value

end Numbers

/-! ### Where the solver stands -/

section Shape

variable {α : Type} [Scalar α]

theorem preamble_append_results (curve : Curve α) :
    curve.script = preamble curve ++ branchResults 0 curve.branches := rfl

/-- **The solver is written once, at the start, when some joint is curved**, and else not at all. -/
theorem core_script_embeds_iff {curve : Curve α} {front back : List (Stmt α)} :
    core curve.script = front ++ core solver ++ back ↔
      curve.hasCubic = true ∧ front = [] ∧
        back = core (solverConstants 0 curve.branches) ++ core (branchResults 0 curve.branches) := by
  cases cubic : curve.hasCubic with
  | true =>
    have script : core curve.script = core solver ++
        (core (solverConstants 0 curve.branches) ++ core (branchResults 0 curve.branches)) := by
      rw [preamble_append_results, preamble, if_pos cubic]
      simp only [core_append, List.append_assoc]
      rfl
    rw [script]
    constructor
    · intro placed
      cases front with
      | nil => exact ⟨rfl, rfl, (List.append_cancel_left placed).symm⟩
      | cons statement front =>
        -- the first statement of the solver would declare its name twice
        have first : statement.declared = ["TABLE_SIZE"] := by
          rw [← (List.cons.inj placed).1]
          rfl
        have names : blockNames (statement :: front) = "TABLE_SIZE" :: blockNames front := by
          show statement.declared ++ _ = _
          rw [first]
          rfl
        have once := (nodup_script curve).of_cons
        rw [← blockNames_core, script, placed, blockNames_append, blockNames_append, names,
          List.append_assoc, List.cons_append, List.nodup_cons] at once
        refine absurd (List.mem_append_right _ (List.mem_append_left _ ?_)) once.1
        exact List.mem_cons_self
    · rintro ⟨-, rfl, rfl⟩
      rfl
  | false =>
    constructor
    · intro placed
      have names := blockNames_script curve
      rw [cubic, if_neg Bool.false_ne_true, ← blockNames_core, placed, blockNames_append,
        blockNames_append, List.append_eq_nil_iff, List.append_eq_nil_iff] at names
      cases names.1.2
    · rintro ⟨isCubic, -⟩
      cases isCubic

/-- The curve of a joint is declared once, before all results, from the control points of a
solver. -/
structure Prepared (curve : Curve α) (index : Nat) (solver : UnitCubic α) : Prop where
  once : (blockNames (core curve.script)).count (solverName index) = 1
  before : ∃ front back, core curve.script = front ++
    .simple (.constant (solverName index) none
      (.call "b" [.literal solver.x1, .literal solver.y1, .literal solver.x2,
        .literal solver.y2])) :: (back ++ core (branchResults 0 curve.branches))

mutual

/-- The functions that an expression calls. -/
def Expr.callees : Expr α → List String
  | .literal _ | .nan | .variable _ | .incremented _ => []
  | .binary _ left right => left.callees ++ right.callees
  | .choose test yes no => test.callees ++ yes.callees ++ no.callees
  | .call callee arguments => callee :: calleesAll arguments
  | .builtin _ arguments => calleesAll arguments
  | .item entries place => entries.callees ++ place.callees
  | .size entries => entries.callees
  | .array entries => calleesAll entries
  | .function _ body => body.callees

/-- The functions that expressions call. -/
def Expr.calleesAll : List (Expr α) → List String
  | [] => []
  | expr :: rest => expr.callees ++ calleesAll rest

end

theorem callees_branchValue (index : Nat) (branch : Branch α) :
    (branchValue index branch).callees =
      if branch.isCubic then ["map", solverName index] else [] := by
  unfold branchValue Branch.isCubic Branch.solver?
  cases branch.shape with
  | line slope => rfl
  | cubic shared => rfl

theorem exists_solverConstant {index k : Nat} {branches : List (Branch α)} {branch : Branch α}
    {shared : SharedSolver α} (member : (branch, k) ∈ branches.zipIdx index)
    (shape : branch.shape = .cubic shared) :
    ∃ front back, solverConstants index branches = front ++
      .simple (.constant (solverName k) none
        (.call "b" [.literal shared.solver.x1, .literal shared.solver.y1,
          .literal shared.solver.x2, .literal shared.solver.y2])) :: back := by
  induction branches generalizing index with
  | nil => cases member
  | cons other rest ih =>
    rw [List.zipIdx_cons, List.mem_cons] at member
    rcases member with first | member
    · cases first
      refine ⟨[], solverConstants (k + 1) rest, ?_⟩
      rw [solverConstants, solverConstant, Branch.solver?, shape]
      rfl
    · obtain ⟨front, back, constants⟩ := ih member
      exact ⟨solverConstant index other ++ front, back, by
        rw [solverConstants, constants, List.append_assoc]⟩

/-- **Every curved joint has its curve prepared.** -/
theorem prepared {curve : Curve α} {index : Nat} {branch : Branch α} {shared : SharedSolver α}
    (joint : curve.branches[index]? = some branch) (shape : branch.shape = .cubic shared) :
    Prepared curve index shared.solver := by
  have member : (branch, index) ∈ curve.branches.zipIdx :=
    List.mk_mem_zipIdx_iff_getElem?.mpr joint
  have isCubic : branch.isCubic = true := by
    unfold Branch.isCubic Branch.solver?
    rw [shape]
    rfl
  have cubic : curve.hasCubic = true :=
    List.any_eq_true.mpr ⟨branch, List.mem_of_getElem? joint, isCubic⟩
  constructor
  · rw [blockNames_core]
    refine List.count_eq_one_of_mem (nodup_script curve).of_cons ?_
    rw [blockNames_script, if_pos cubic]
    exact List.mem_append_right _ (List.mem_map.mpr
      ⟨index, mem_curvedPlaces.mpr ⟨branch, member, isCubic⟩, rfl⟩)
  · obtain ⟨front, back, constants⟩ := exists_solverConstant member shape
    refine ⟨core (solver ++ [.blank] ++ front), core back, ?_⟩
    rw [preamble_append_results, preamble, if_pos cubic, constants]
    simp only [core_append, List.append_assoc]
    rfl

end Shape

/-! ### The text of the script -/

section Text

/-- A word with a digit in it has no meaning of its own. -/
theorem isName_of_digit {name : String} (begins : name.toList.head?.any isLetter = true)
    (isParts : name.toList.all isPart = true) {c : Char} (member : c ∈ name.toList)
    (digit : c.isDigit = true) : isName name = true := by
  have noDigits : ∀ word ∈ keywords.map Prod.fst ++ reservedWords,
      (word.toList.all fun c => !c.isDigit) = true := by decide +kernel
  have other : name ∉ keywords.map Prod.fst ++ reservedWords := by
    intro known
    have noDigit := List.all_eq_true.mp (noDigits name known) c member
    rw [digit] at noDigit
    cases noDigit
  rw [List.mem_append, not_or, List.mem_map] at other
  obtain ⟨noKeyword, notReserved⟩ := other
  have absent : keywords.lookup name = none := by
    rw [List.lookup_eq_none_iff]
    intro entry known
    rw [bne_iff_ne]
    rintro rfl
    exact noKeyword ⟨entry, known, rfl⟩
  rw [isName, begins, isParts, absent]
  exact decide_eq_true notReserved

/-- The name of the curve of a joint is a name. -/
theorem isName_solverName (index : Nat) : isName (solverName index) = true := by
  have isText : (solverName index).toList = "curve".toList ++ Nat.toDigits 10 index := by
    rw [solverName, String.toList_append, Decimal.toList_toString]
  have digits := Decimal.allDigits_toDigits index
  obtain ⟨c, rest, isCons⟩ :=
    List.exists_cons_of_ne_nil (Nat.toDigits_ne_nil : Nat.toDigits 10 index ≠ [])
  have member : c ∈ Nat.toDigits 10 index := by
    rw [isCons]
    exact List.mem_cons_self
  refine isName_of_digit ?_ ?_ (by rw [isText]; exact List.mem_append_right _ member)
    (digits c member)
  · rw [isText]
    rfl
  · have isParts : (Nat.toDigits 10 index).all isPart = true :=
      List.all_eq_true.mpr fun other inside => by
        rw [isPart, digits other inside, Bool.or_true]
    rw [isText, List.all_append, isParts]
    rfl

variable {curve : Curve Float}

theorem allPlain_solverConstants (index : Nat) (branches : List (Branch Float))
    (controls : ∀ branch ∈ branches, ∀ shared, branch.shape = .cubic shared →
      shared.solver.toControls.isFinite = true) :
    Stmt.allPlain Scalar.isFinite (solverConstants index branches) = true := by
  induction branches generalizing index with
  | nil => rfl
  | cons branch rest ih =>
    refine allPlain_append ?_
      (ih (index + 1) fun other member => controls other (List.mem_cons_of_mem _ member))
    unfold solverConstant Branch.solver?
    cases shape : branch.shape with
    | line slope => rfl
    | cubic shared =>
      have finite := controls branch List.mem_cons_self shared shape
      simp only [Controls.isFinite, Bool.and_eq_true] at finite
      have isB : isName "b" = true := by decide +kernel
      simp [Stmt.allPlain, Stmt.plain, Simple.plain, Expr.plain, Expr.allPlain,
        isName_solverName, isB, finite]

theorem plain_branchValue (index : Nat) {branch : Branch Float}
    (finite : branch.isFinite = true) :
    (branchValue index branch).plain Scalar.isFinite = true := by
  simp only [Branch.isFinite, Bool.and_eq_true] at finite
  obtain ⟨⟨⟨⟨x0, y0⟩, x1⟩, y1⟩, -⟩ := finite
  have names : isName "t" = true ∧ isName "map" = true := by decide +kernel
  have wholes : Scalar.isFinite ((0 : Nat) : Float) = true ∧
      Scalar.isFinite ((1 : Nat) : Float) = true := by decide +kernel
  unfold branchValue
  cases branch.shape with
  | line slope =>
    simp [Expr.plain, Expr.isFunction, add, sub, mul, div, var, x0, y0, x1, y1, names]
  | cubic shared =>
    simp only [Expr.plain, Expr.allPlain, Expr.isFunction, sub, div, var, whole, x0, y0, x1, y1,
      names, wholes, isName_solverName, Bool.not_false, Bool.and_self]

theorem allPlain_branchResults (index : Nat) {branches : List (Branch Float)}
    (finite : ∀ branch ∈ branches, branch.isFinite = true) :
    Stmt.allPlain Scalar.isFinite (branchResults index branches) = true := by
  have isT : isName "t" = true := by decide +kernel
  induction branches generalizing index with
  | nil => rfl
  | cons branch rest ih =>
    have own := plain_branchValue index (finite branch List.mem_cons_self)
    cases rest with
    | nil => exact Bool.and_eq_true_iff.mpr ⟨own, rfl⟩
    | cons next rest =>
      have isFinite := finite branch List.mem_cons_self
      simp only [Branch.isFinite, Bool.and_eq_true] at isFinite
      have others := ih (index + 1) fun other member => finite other (List.mem_cons_of_mem _ member)
      rw [branchResults, Stmt.allPlain, others]
      simp [Stmt.plain, Simple.plain, Expr.plain, Expr.isFunction, Simple.declares, var, isT, own,
        isFinite]

/-- **The script of a curve that can be run is read back from its text.** -/
theorem Printable.allPlain_script (printable : Printable curve) :
    Stmt.allPlain Scalar.isFinite curve.script = true := by
  have isSolver : Stmt.allPlain Scalar.isFinite (solver ++ [.blank] : List (Stmt Float)) = true := by
    decide +kernel
  refine allPlain_append ?_ (allPlain_branchResults 0 printable.finite)
  cases curve.hasCubic with
  | true =>
    exact allPlain_append isSolver (allPlain_solverConstants 0 curve.branches printable.controls)
  | false => rfl

/-- No line of a script has a line feed in it. -/
theorem not_mem_feed_script (function : CurveFunction Float) :
    ∀ line ∈ Stmt.allLines .untyped function.script, '\n' ∉ line.toList :=
  fun line member => not_mem_feed
    (List.all_eq_true.mp (function.isOneLine_script numberText_plain .untyped) line member)

end Text

/-! ### The source of a path -/

/-- A text run as a function of one number. -/
def runText (depth : Nat) (text : String) (t : Float) : Option (Value Float) :=
  (readFunction decimalLiteral? text).bind fun function =>
    (call depth (.closure [] function.parameters (.block function.body)) [.number t] []).map
      Prod.fst

/-- A text that is read as the core of a script computes what the script computes. -/
theorem runText_of_core {text name : String} {script : List (Stmt Float)}
    (isRead : readFunction decimalLiteral? text = some ⟨name, ["t"], core script⟩) {depth : Nat}
    {t value : Float} (runs : run depth script t = some (.number value)) :
    runText depth text t = some (.number value) := by
  have whole := run_core depth script t
  rw [runs] at whole
  rw [runText, isRead]
  exact whole

/-- A curve that was built from a path can be run, when its control values are finite. -/
theorem printable_of_built {α : Type} [Scalar α] [LawfulSame α] {pool : SolverPool α}
    {path : Path α} {curve : Curve α} (built : (buildCurve pool path).1 = .ok curve)
    (controls : ∀ branch ∈ curve.branches, ∀ shared, branch.shape = .cubic shared →
      shared.solver.toControls.isFinite = true) : Printable curve where
  some := branches_ne_nil built
  finite branch member := isFinite_of_built built member
  lines branch member slope line := by
    obtain ⟨joint, -, joins⟩ := exists_joint built member
    rw [joins.start, joins.stop]
    exact joins.slope slope line
  controls := controls

/-- Doubles count small whole numbers exactly. -/
instance : Counting Float where
  isFinite_whole := by decide +kernel
  isFinite_newtonSlope := by decide +kernel
  isFinite_bisectTolerance := by decide +kernel
  succ := by decide +kernel
  pred := by decide +kernel
  beq := by decide +kernel
  lt := by decide +kernel
  unit := by decide +kernel

/-- **The source of an exact compile runs as the curve.** When the control points of all solvers
are finite, the text without annotations reads as a function of `t` whose body is the script less its
layout, and this function returns the value of the curve at every finite `t`. The solver stands in
it once, at the start, when some joint is curved, and else not at all. A joint calls nothing but the
map and its own curve, which is declared once, before all results, from the control points of its
solver. -/
theorem compileExact_source_runs {pool : SolverPool Float} {path : Path Float}
    {result : ExactCompiled Float} (ok : (compileExact pool path).1 = .ok result)
    (controls : ∀ branch ∈ result.curve.branches, ∀ shared, branch.shape = .cubic shared →
      shared.solver.toControls.isFinite = true) :
    readFunction decimalLiteral? result.untypedSource =
        some ⟨"interpolate", ["t"], core result.curve.script⟩ ∧
      (∀ t : Float, Scalar.isFinite t = true → ∀ depth, 14 ≤ depth →
        runText depth result.untypedSource t = some (.number (result.curve.eval t))) ∧
      (∀ front back, core result.curve.script = front ++ core solver ++ back ↔
        result.curve.hasCubic = true ∧ front = [] ∧
          back = core (solverConstants 0 result.curve.branches) ++
            core (branchResults 0 result.curve.branches)) ∧
      ∀ index branch, result.curve.branches[index]? = some branch →
        ∀ name ∈ (branchValue index branch).callees, name = "map" ∨
          name = solverName index ∧ ∃ shared, branch.shape = .cubic shared ∧
            Prepared result.curve index shared.solver := by
  unfold compileExact at ok
  dsimp only at ok
  cases built : (buildCurve pool path).1 with
  | error error =>
    rw [built] at ok
    cases ok
  | ok curve =>
    rw [built] at ok
    cases ok
    have printable : Printable curve := printable_of_built built controls
    have isRead : readFunction decimalLiteral? (curve.source .untyped) =
        some ⟨"interpolate", ["t"], core curve.script⟩ :=
      readFunction_wrapLines (fun _ finite => denotes_plain finite) printable.allPlain_script
        (not_mem_feed_script (.exact curve))
    refine ⟨isRead, fun t finite depth deep =>
        runText_of_core isRead (printable.run_script finite deep),
      fun front back => core_script_embeds_iff, ?_⟩
    intro index branch joint name called
    rw [callees_branchValue] at called
    cases shape : branch.shape with
    | line slope =>
      unfold Branch.isCubic Branch.solver? at called
      rw [shape] at called
      cases called
    | cubic shared =>
      unfold Branch.isCubic Branch.solver? at called
      rw [shape] at called
      have called : name ∈ ["map", solverName index] := called
      rw [List.mem_cons, List.mem_singleton] at called
      exact called.imp_right fun own => ⟨own, shared, rfl, prepared joint shape⟩

/-- A short curved joint between two straight ones. -/
def curvedMiddle : Path Float where
  segments :=
    [⟨Knot.corner ⟨0, 0⟩, ⟨0⟩⟩,
      ⟨{ point := ⟨0.401, 0.25⟩, handleIn := ⟨0, 0⟩, handleOut := ⟨0.004, 0⟩ }, ⟨1⟩⟩,
      ⟨{ point := ⟨0.409, 0.75⟩, handleIn := ⟨-0.004, 0⟩, handleOut := ⟨0, 0⟩ }, ⟨2⟩⟩,
      ⟨Knot.corner ⟨1, 1⟩, ⟨3⟩⟩]
  domain := 1

/-- The source of this path runs as its curve, with one solver in it. -/
theorem source_runs_curvedMiddle :
    ∃ result, (compileExact SolverPool.empty curvedMiddle).1 = .ok result ∧
      (∀ branch ∈ result.curve.branches, ∀ shared, branch.shape = .cubic shared →
        shared.solver.toControls.isFinite = true) ∧
      Scalar.isFinite (0.405 : Float) = true ∧
      runText 14 result.untypedSource 0.405 = some (.number (result.curve.eval 0.405)) ∧
      ∃ back, core result.curve.script = core solver ++ back := by
  have compiles : ((buildCurve SolverPool.empty curvedMiddle).1.toOption.any fun curve =>
      curve.hasCubic && curve.branches.all fun branch =>
        branch.solver?.all fun shared => shared.solver.toControls.isFinite) = true := by
    decide +kernel
  cases built : (buildCurve SolverPool.empty curvedMiddle).1 with
  | error error =>
    rw [built] at compiles
    cases compiles
  | ok curve =>
    rw [built] at compiles
    obtain ⟨cubic, finite⟩ := Bool.and_eq_true_iff.mp compiles
    have ok : (compileExact SolverPool.empty curvedMiddle).1 = .ok curve.withSources := by
      unfold compileExact
      dsimp only
      rw [built]
      rfl
    have controls : ∀ branch ∈ curve.branches, ∀ shared, branch.shape = .cubic shared →
        shared.solver.toControls.isFinite = true := by
      intro branch member shared shape
      have own := List.all_eq_true.mp finite branch member
      unfold Branch.solver? at own
      rwa [shape] at own
    have inside : Scalar.isFinite (0.405 : Float) = true := by decide +kernel
    obtain ⟨-, runs, embeds, -⟩ := compileExact_source_runs ok controls
    refine ⟨curve.withSources, ok, controls, inside, runs _ inside 14 (Nat.le_refl 14), _,
      (embeds [] _).mpr ⟨cubic, rfl, rfl⟩⟩

end Script

end Easing
