/-
**What the script of a curve computes.**

* `Ready`: the curves of the joints are in sight; `execAll_solverConstants` makes them so.
* `yields_branchValue`: the expression of a joint has the value of the joint.
* `execAll_branchResults`: the chain of results returns the value of the first joint that ends
  beyond `t`.
* `Curve.run_script`: the script of a curve has the values of the curve.
-/
import Easing.Compiled
import Easing.Proofs.Curve.Joint
import Easing.Proofs.Script.Maker

set_option linter.unusedSectionVars false

namespace Easing

variable {α : Type} [Scalar α]

/-- The control values are finite. -/
def Controls.isFinite (c : Controls α) : Bool :=
  Scalar.isFinite c.x1 && Scalar.isFinite c.y1 && Scalar.isFinite c.x2 && Scalar.isFinite c.y2

namespace Script

/-! ### Names -/

theorem solverName_injective {first second : Nat} (same : solverName first = solverName second) :
    first = second :=
  Nat.repr_injective ((String.append_right_inj _).mp same)

/-- A name that begins otherwise is not that of a curve. -/
theorem ne_solverName {name : String} (differs : ¬"curve".toList <+: name.toList) (index : Nat) :
    name ≠ solverName index := by
  rintro rfl
  unfold solverName at differs
  rw [String.toList_append] at differs
  exact differs (List.prefix_append _ _)

/-- The places of the curved joints. -/
def curvedPlaces (index : Nat) (branches : List (Branch α)) : List Nat :=
  ((branches.zipIdx index).filter fun entry => entry.1.isCubic).map Prod.snd

theorem mem_curvedPlaces {index k : Nat} {branches : List (Branch α)} :
    k ∈ curvedPlaces index branches ↔
      ∃ branch, (branch, k) ∈ branches.zipIdx index ∧ branch.isCubic = true := by
  unfold curvedPlaces
  rw [List.mem_map]
  constructor
  · rintro ⟨⟨branch, place⟩, member, rfl⟩
    exact ⟨branch, List.mem_filter.mp member⟩
  · rintro ⟨branch, member⟩
    exact ⟨(branch, k), List.mem_filter.mpr member, rfl⟩

theorem blockNames_solverConstants (index : Nat) (branches : List (Branch α)) :
    blockNames (solverConstants index branches) = (curvedPlaces index branches).map solverName := by
  induction branches generalizing index with
  | nil => rfl
  | cons branch rest ih =>
    unfold solverConstants curvedPlaces
    rw [blockNames_append, ih, List.zipIdx_cons]
    unfold solverConstant Branch.isCubic
    rw [List.filter_cons]
    dsimp only
    cases branch.solver? with
    | none => rfl
    | some shared => rfl

theorem blockNames_branchResults (index : Nat) (branches : List (Branch α)) :
    blockNames (branchResults index branches) = [] := by
  induction branches generalizing index with
  | nil => rfl
  | cons branch rest ih =>
    cases rest with
    | nil => rfl
    | cons next rest => exact ih (index + 1)

/-- The names that the solver declares. -/
def solverNames : List String :=
  ["TABLE_SIZE", "TABLE_STEP", "map", "coeffA", "coeffB", "coeffC", "bezierAt", "slopeAt", "b"]

theorem blockNames_script (curve : Curve α) :
    blockNames curve.script =
      if curve.hasCubic then solverNames ++ (curvedPlaces 0 curve.branches).map solverName
      else [] := by
  unfold Curve.script
  rw [blockNames_append, blockNames_branchResults, List.append_nil]
  cases curve.hasCubic with
  | true =>
    rw [if_pos rfl, if_pos rfl, blockNames_append, blockNames_solverConstants]
    rfl
  | false => rfl

/-- **No name is declared twice**, the parameter included. -/
theorem nodup_script (curve : Curve α) : ("t" :: blockNames curve.script).Nodup := by
  rw [blockNames_script]
  cases curve.hasCubic with
  | true =>
    have places : (curvedPlaces 0 curve.branches).Nodup := by
      refine (List.filter_sublist.map Prod.snd).nodup ?_
      rw [List.zipIdx_map_snd]
      exact List.nodup_range'
    have other : ∀ name ∈ "t" :: solverNames, ¬"curve".toList <+: name.toList := by decide
    rw [if_pos rfl, ← List.cons_append]
    refine List.nodup_append.mpr ⟨by decide, places.map @solverName_injective, ?_⟩
    intro name isOther own isOwn
    obtain ⟨k, -, rfl⟩ := List.mem_map.mp isOwn
    exact ne_solverName (other name isOther) k
  | false => exact List.nodup_singleton "t"

theorem ordered_append {front back : List (Stmt α)} (isFront : ordered front = true)
    (isBack : ordered back = true)
    (apart : ∀ name ∈ Stmt.usesAll front, name ∉ blockNames back) :
    ordered (front ++ back) = true := by
  induction front with
  | nil => exact isBack
  | cons statement front ih =>
    unfold ordered at isFront
    unfold Stmt.usesAll at apart
    rw [Bool.and_eq_true, List.all_eq_true] at isFront
    rw [List.cons_append, ordered, Bool.and_eq_true, List.all_eq_true]
    refine ⟨fun name used => ?_, ih isFront.2 fun name used =>
      apart name (List.mem_append_right _ used)⟩
    have own := of_decide_eq_true (isFront.1 name used)
    have later := apart name (List.mem_append_left _ used)
    rw [← List.cons_append, blockNames_append]
    exact decide_eq_true fun member => (List.mem_append.mp member).elim own later

theorem ordered_of_blockNames {body : List (Stmt α)} (none : blockNames body = []) :
    ordered body = true := by
  induction body with
  | nil => rfl
  | cons statement rest ih =>
    have parts := List.append_eq_nil_iff.mp none
    rw [ordered, Bool.and_eq_true, List.all_eq_true]
    refine ⟨fun name _ => decide_eq_true ?_, ih parts.2⟩
    rw [none]
    exact List.not_mem_nil

theorem ordered_solverConstants (index : Nat) (branches : List (Branch α)) :
    ordered (solverConstants index branches) = true := by
  induction branches generalizing index with
  | nil => rfl
  | cons branch rest ih =>
    have absent : "b" ∉ blockNames (solverConstants index (branch :: rest)) := by
      rw [blockNames_solverConstants]
      intro member
      obtain ⟨k, -, same⟩ := List.mem_map.mp member
      exact ne_solverName (by decide) k same.symm
    unfold solverConstants solverConstant at absent ⊢
    cases solver : branch.solver? with
    | none => exact ih (index + 1)
    | some shared =>
      rw [solver] at absent
      dsimp only at absent ⊢
      rw [List.singleton_append] at absent ⊢
      rw [ordered, Bool.and_eq_true, List.all_eq_true]
      refine ⟨fun name used => decide_eq_true ?_, ih (index + 1)⟩
      obtain rfl : name = "b" := List.mem_singleton.mp used
      exact absent

/-- **Every name is declared before it is used.** -/
theorem ordered_script (curve : Curve α) : ordered curve.script = true := by
  unfold Curve.script
  have results := blockNames_branchResults 0 curve.branches
  refine ordered_append ?_ (ordered_of_blockNames results) fun name _ => by
    rw [results]
    exact List.not_mem_nil
  cases curve.hasCubic with
  | true =>
    have isSolver : ordered (solver ++ [.blank] : List (Stmt α)) = true := by cbv
    have other : ((Stmt.usesAll (solver ++ [.blank] : List (Stmt α))).all fun name =>
        ¬"curve".toList <+: name.toList) = true := by cbv
    rw [if_pos rfl]
    refine ordered_append isSolver (ordered_solverConstants 0 curve.branches) fun name used => ?_
    rw [blockNames_solverConstants]
    intro member
    obtain ⟨k, -, same⟩ := List.mem_map.mp member
    exact ne_solverName (of_decide_eq_true (List.all_eq_true.mp other name used)) k same.symm
  | false => rfl

theorem wellNamed_script (curve : Curve α) : wellNamed ["t"] curve.script = true :=
  Bool.and_eq_true_iff.mpr ⟨decide_eq_true (nodup_script curve), ordered_script curve⟩

/-! ### The curves of the joints -/

variable [Counting α]

/-- What a script sees of its solver. -/
def solverScope (scope : Scope α) : Scope α :=
  ("b", .closure (libraryScope scope) ["x1", "y1", "x2", "y2"] (.block makerBody)) ::
    libraryScope scope

theorem execAll_solver (scope : Scope α) {apply : Apply α} {rounds : Nat} {heap : Heap α} :
    execAll apply rounds solver ⟨scope, [], heap⟩ =
      some (.next, ⟨solverScope scope, [], heap⟩) := by
  refine (execAll_append_next (execAll_polynomials scope)).trans ?_
  exact (execAll_next exec_function).trans execAll_nil

/-- The curves of all curved joints are in sight, from a joint on. -/
def Ready (scope : Scope α) (heap : Heap α) (index : Nat) (branches : List (Branch α)) : Prop :=
  ∀ branch k, (branch, k) ∈ branches.zipIdx index → ∀ shared, branch.shape = .cubic shared →
    ∃ function, scope.lookup (solverName k) = some function ∧ Solves function heap shared.solver

section Constants

variable {outer scope : Scope α} {heap : Heap α} {m rounds index : Nat} {branch : Branch α}
  {branches : List (Branch α)} {shared : SharedSolver α}

/-- One curve is made and named. -/
theorem exec_solverConstant (library : ∀ heap, Library ⟨outer, [], heap⟩) (deep : 13 ≤ m)
    (isMaker : scope.lookup "b" =
      some (.closure outer ["x1", "y1", "x2", "y2"] (.block makerBody)))
    (finite : shared.solver.toControls.isFinite = true) :
    ∃ function later, exec (call m) rounds
        (.simple (.constant (solverName index) none
          (.call "b" [.literal shared.solver.x1, .literal shared.solver.y1,
            .literal shared.solver.x2, .literal shared.solver.y2]))) ⟨scope, [], heap⟩ =
        some (.next, ⟨(solverName index, function) :: scope, [], later⟩) ∧
      heap <+: later ∧ Solves function later shared.solver := by
  obtain ⟨function, later, made, kept, solves⟩ :
    ∃ function later, call m _ [.number shared.solver.x1, .number shared.solver.y1,
      .number shared.solver.x2, .number shared.solver.y2] heap = some (function, later) ∧ _ :=
    makes_solver library deep
  unfold Controls.isFinite at finite
  rw [Bool.and_eq_true, Bool.and_eq_true, Bool.and_eq_true] at finite
  obtain ⟨⟨⟨x1, y1⟩, x2⟩, y2⟩ := finite
  have arguments : evalAll (call m) [.literal shared.solver.x1, .literal shared.solver.y1,
      .literal shared.solver.x2, .literal shared.solver.y2] ⟨scope, [], heap⟩ =
        some ([.number shared.solver.x1, .number shared.solver.y1, .number shared.solver.x2,
          .number shared.solver.y2], ⟨scope, [], heap⟩) :=
    Yields.cons (yields_literal x1) (Yields.cons (yields_literal y1)
      (Yields.cons (yields_literal x2) (Yields.cons (yields_literal y2) evalAll_nil)))
  have isMaker : State.find? ⟨scope, [], heap⟩ "b" = some _ := isMaker
  have value : eval (call m) (.call "b" [.literal shared.solver.x1, .literal shared.solver.y1,
      .literal shared.solver.x2, .literal shared.solver.y2]) ⟨scope, [], heap⟩ =
        some (function, ⟨scope, [], later⟩) := by
    rw [eval_call, isMaker, Option.bind_some, arguments, Option.bind_some]
    dsimp only
    rw [made]
    rfl
  refine ⟨function, later, ?_, kept, solves⟩
  show (eval (call m) (.call "b" _) ⟨scope, [], heap⟩).bind _ = _
  rw [value]
  rfl

/-- **The names for the solvers make the curves of all curved joints.** -/
theorem execAll_solverConstants (library : ∀ heap, Library ⟨outer, [], heap⟩) (deep : 13 ≤ m)
    (isMaker : scope.lookup "b" =
      some (.closure outer ["x1", "y1", "x2", "y2"] (.block makerBody)))
    (finite : ∀ branch ∈ branches, ∀ shared, branch.shape = .cubic shared →
      shared.solver.toControls.isFinite = true) :
    ∃ curves later, execAll (call m) rounds (solverConstants index branches) ⟨scope, [], heap⟩ =
        some (.next, ⟨curves, [], later⟩) ∧
      heap <+: later ∧
      (∀ name, (∀ k, index ≤ k → name ≠ solverName k) → curves.lookup name = scope.lookup name) ∧
      Ready curves later index branches := by
  induction branches generalizing index scope heap with
  | nil =>
    exact ⟨scope, heap, execAll_nil, List.prefix_rfl, fun name _ => rfl, fun branch k member => by
      cases member⟩
  | cons branch rest ih =>
    have finiteRest : ∀ branch ∈ rest, ∀ shared, branch.shape = .cubic shared →
        shared.solver.toControls.isFinite = true :=
      fun branch member => finite branch (List.mem_cons_of_mem _ member)
    cases shape : branch.shape with
    | line slope =>
      have constants : solverConstants index (branch :: rest) = solverConstants (index + 1) rest := by
        rw [solverConstants, solverConstant, Branch.solver?, shape]
        rfl
      obtain ⟨curves, later, run, kept, same, ready⟩ := @ih scope heap (index + 1) isMaker finiteRest
      refine ⟨curves, later, constants ▸ run, kept,
        fun name other => same name fun k after => other k (by omega), ?_⟩
      intro other k member shared cubic
      rw [List.zipIdx_cons, List.mem_cons] at member
      rcases member with first | member
      · cases first
        rw [shape] at cubic
        cases cubic
      · exact ready other k member shared cubic
    | cubic shared =>
      have constants : solverConstants index (branch :: rest) =
          .simple (.constant (solverName index) none
            (.call "b" [.literal shared.solver.x1, .literal shared.solver.y1,
              .literal shared.solver.x2, .literal shared.solver.y2])) ::
            solverConstants (index + 1) rest := by
        rw [solverConstants, solverConstant, Branch.solver?, shape]
        rfl
      obtain ⟨function, stored, first, grown, solves⟩ :=
        @exec_solverConstant α _ _ outer scope heap m rounds index shared library deep isMaker
          (finite branch List.mem_cons_self shared shape)
      have stillMaker : List.lookup "b" ((solverName index, function) :: scope) =
          some (.closure outer ["x1", "y1", "x2", "y2"] (.block makerBody)) := by
        rw [List.lookup_cons, beq_eq_false_iff_ne.mpr (ne_solverName (by decide) index)]
        exact isMaker
      obtain ⟨curves, later, run, kept, same, ready⟩ :=
        @ih ((solverName index, function) :: scope) stored (index + 1) stillMaker finiteRest
      have named : ∀ name, (∀ k, index ≤ k → name ≠ solverName k) →
          curves.lookup name = scope.lookup name := by
        intro name other
        rw [same name fun k after => other k (by omega), List.lookup_cons,
          beq_eq_false_iff_ne.mpr (other index (Nat.le_refl _))]
      refine ⟨curves, later, ?_, grown.trans kept, named, ?_⟩
      · rw [constants, execAll_next first, run]
      · intro other k member own cubic
        rw [List.zipIdx_cons, List.mem_cons] at member
        rcases member with first | member
        · cases first
          obtain rfl : shared = own := Shape.cubic.inj (shape.symm.trans cubic)
          refine ⟨function, ?_, solves.later kept⟩
          -- later names are those of later joints
          rw [same _ fun k after same => absurd (solverName_injective same) (by omega)]
          exact List.lookup_cons_self
        · exact ready other k member own cubic

end Constants

/-! ### The values of the joints -/

section Results

variable {scope : Scope α} {heap : Heap α} {m rounds index : Nat} {branch : Branch α}
  {branches : List (Branch α)} {t : α}

/-- The expression of a joint has the value of the joint, when its line has the slope between its
anchors. -/
theorem yields_branchValue (isT : scope.lookup "t" = some (.number t))
    (finite : branch.isFinite = true)
    (line : ∀ slope, branch.shape = .line slope →
      slope = (branch.stop.y - branch.start.y) / (branch.stop.x - branch.start.x))
    (library : branch.isCubic = true → Library ⟨scope, [], heap⟩)
    (solver : ∀ shared, branch.shape = .cubic shared → ∃ function,
      scope.lookup (solverName index) = some function ∧ Solves function heap shared.solver)
    (deep : 12 ≤ m) :
    Yields (call m) ⟨scope, [], heap⟩ (branchValue index branch) (.number (branch.eval t)) := by
  unfold Branch.isFinite at finite
  rw [Bool.and_eq_true, Bool.and_eq_true, Bool.and_eq_true, Bool.and_eq_true] at finite
  obtain ⟨⟨⟨⟨x0, y0⟩, x1⟩, y1⟩, -⟩ := finite
  have isOffset : Yields (call m) ⟨scope, [], heap⟩ (sub (var "t") (.literal branch.start.x))
      (.number (t - branch.start.x)) := Yields.sub (yields_var isT) (yields_literal x0)
  have isWidth : Yields (call m) ⟨scope, [], heap⟩
      (sub (.literal branch.stop.x) (.literal branch.start.x))
      (.number (branch.stop.x - branch.start.x)) :=
    Yields.sub (yields_literal x1) (yields_literal x0)
  unfold branchValue Branch.eval
  dsimp only
  cases shape : branch.shape with
  | line slope =>
    dsimp only
    rw [line slope shape]
    exact ((((yields_literal y1).sub (yields_literal y0)).div isWidth).mul isOffset).add
      (yields_literal y0)
  | cubic shared =>
    dsimp only
    obtain ⟨function, isSolver, solves⟩ := solver shared shape
    have isCubic : branch.isCubic = true := by
      unfold Branch.isCubic Branch.solver?
      rw [shape]
      rfl
    have isSolver : State.find? ⟨scope, [], heap⟩ (solverName index) = some function := isSolver
    have isValue : Yields (call m) ⟨scope, [], heap⟩
        (.call (solverName index) [div (sub (var "t") (.literal branch.start.x))
          (sub (.literal branch.stop.x) (.literal branch.start.x))])
        (.number (shared.solver.eval
          ((t - branch.start.x) / (branch.stop.x - branch.start.x)))) :=
      Yields.call isSolver (solves heap List.prefix_rfl _) deep
        (Yields.cons (isOffset.div isWidth) evalAll_nil)
    exact ((library isCubic).map _ _ _).yields (by omega) (Yields.cons isValue
      (Yields.cons (yields_whole (by decide)) (Yields.cons (yields_whole (by decide))
        (Yields.cons (yields_literal y0) (Yields.cons (yields_literal y1) evalAll_nil)))))

/-- The first joint that ends beyond `t` gives the result, and else the last one. -/
theorem execAll_branchResults {apply : Apply α} (isT : scope.lookup "t" = some (.number t))
    (finite : ∀ branch ∈ branches, branch.isFinite = true) (some : branches ≠ [])
    (values : ∀ branch k, (branch, k) ∈ branches.zipIdx index →
      Yields apply ⟨scope, [], heap⟩ (branchValue k branch) (.number (branch.eval t))) :
    execAll apply rounds (branchResults index branches) ⟨scope, [], heap⟩ =
      Option.some (.returned (.number (Curve.evalBranches t branches)), ⟨scope, [], heap⟩) := by
  induction branches generalizing index with
  | nil => exact absurd rfl some
  | cons branch rest ih =>
    have value := values branch index List.mem_cons_self
    cases rest with
    | nil => exact execAll_returned (exec_result value)
    | cons next rest =>
      have stop : Scalar.isFinite branch.stop.x = true := by
        have isFinite := finite branch List.mem_cons_self
        unfold Branch.isFinite at isFinite
        rw [Bool.and_eq_true, Bool.and_eq_true, Bool.and_eq_true] at isFinite
        exact isFinite.1.1.2
      have test : Yields apply ⟨scope, [], heap⟩
          (.binary .less (var "t") (.literal branch.stop.x)) (.truth (decide (t < branch.stop.x))) :=
        Yields.binary (yields_var isT) (yields_literal stop) rfl rfl
      have guarded : exec apply rounds (.guarded (.binary .less (var "t") (.literal branch.stop.x))
          (.result (branchValue index branch))) ⟨scope, [], heap⟩ = _ := test.guarded
      unfold branchResults Curve.evalBranches
      by_cases before : t < branch.stop.x
      · rw [decide_eq_true before, if_pos rfl] at guarded
        rw [if_pos before]
        exact execAll_returned (guarded.trans (simple_result value))
      · rw [decide_eq_false before, if_neg Bool.false_ne_true] at guarded
        rw [if_neg before, execAll_next guarded]
        exact ih (fun branch member => finite branch (List.mem_cons_of_mem _ member))
          (List.cons_ne_nil _ _) fun branch k member =>
            values branch k (List.mem_cons_of_mem _ member)

end Results

/-! ### The whole script -/

/-- At a finite place the value of a curve is that of its joints. -/
theorem eval_of_isFinite {curve : Curve α} {t : α} (some : curve.branches ≠ [])
    (finite : Scalar.isFinite t = true) : curve.eval t = Curve.evalBranches t curve.branches := by
  unfold Scalar.isFinite at finite
  rw [Bool.and_eq_true, Bool.not_eq_true', Bool.not_eq_true'] at finite
  unfold Curve.eval
  rw [List.head?_eq_some_head some, List.getLast?_eq_some_getLast some]
  dsimp only
  rw [finite.1, finite.2, if_neg Bool.false_ne_true, if_neg Bool.false_ne_true]

/-- What a curve needs for its script to be run: joints with finite numbers, whose lines have the
slopes between their anchors. -/
structure Printable (curve : Curve α) : Prop where
  some : curve.branches ≠ []
  finite : ∀ branch ∈ curve.branches, branch.isFinite = true
  lines : ∀ branch ∈ curve.branches, ∀ slope, branch.shape = .line slope →
    slope = (branch.stop.y - branch.start.y) / (branch.stop.x - branch.start.x)
  controls : ∀ branch ∈ curve.branches, ∀ shared, branch.shape = .cubic shared →
    shared.solver.toControls.isFinite = true

section Running

variable {curve : Curve α} {t : α} {m rounds : Nat}

/-- What the script of a curve declares before its results. -/
def preamble (curve : Curve α) : List (Stmt α) :=
  if curve.hasCubic then solver ++ [.blank] ++ solverConstants 0 curve.branches else []

/-- What is declared before the results makes all curves. -/
theorem Printable.execAll_preamble (printable : Printable curve) (t : α) (deep : 13 ≤ m) :
    ∃ scope heap, execAll (call m) rounds (preamble curve) ⟨[("t", .number t)], [], []⟩ =
        Option.some (.next, ⟨scope, [], heap⟩) ∧
      scope.lookup "t" = Option.some (.number t) ∧
      (curve.hasCubic = true → Library ⟨scope, [], heap⟩) ∧
      Ready scope heap 0 curve.branches := by
  unfold preamble
  cases cubic : curve.hasCubic with
  | true =>
    rw [if_pos rfl]
    have library : ∀ heap, Library ⟨libraryScope [("t", Value.number t)], [], heap⟩ :=
      library_libraryScope _
    have isMaker : List.lookup "b" (solverScope [("t", Value.number t)]) = Option.some _ := rfl
    obtain ⟨scope, heap, run, -, same, ready⟩ :
        ∃ scope heap, execAll (call m) rounds (solverConstants 0 curve.branches)
          ⟨solverScope [("t", .number t)], [], []⟩ = Option.some (.next, ⟨scope, [], heap⟩) ∧ _ :=
      execAll_solverConstants library deep isMaker printable.controls
    have other : ∀ name ∈ "t" :: libraryNames, ¬"curve".toList <+: name.toList := by decide
    have kept : ∀ name ∈ "t" :: libraryNames,
        scope.lookup name = (solverScope [("t", Value.number t)]).lookup name :=
      fun name member => same name fun k _ => ne_solverName (other name member) k
    have solved : Library ⟨solverScope [("t", Value.number t)], [], heap⟩ :=
      (library heap).constant (by decide)
    refine ⟨scope, heap, ?_, kept "t" List.mem_cons_self, fun _ => ?_, ready⟩
    · rw [List.append_assoc, execAll_append_next (execAll_solver _)]
      exact (execAll_next rfl).trans run
    · exact solved.of_agrees fun name member => kept name (List.mem_cons_of_mem _ member)
  | false =>
    rw [if_neg Bool.false_ne_true]
    refine ⟨_, _, execAll_nil, rfl, nofun, ?_⟩
    intro branch k member shared shape
    have straight := List.any_eq_false.mp cubic branch (List.fst_mem_of_mem_zipIdx member)
    unfold Branch.isCubic Branch.solver? at straight
    rw [shape] at straight
    exact absurd rfl straight

/-- **The script of a curve has the values of the curve**, at every finite place. -/
theorem Printable.run_script (printable : Printable curve) (isFinite : Scalar.isFinite t = true)
    (deep : 14 ≤ m) : run m curve.script t = Option.some (.number (curve.eval t)) := by
  obtain ⟨m, rfl⟩ : ∃ before, m = before + 1 := Nat.exists_eq_succ_of_ne_zero (by omega)
  obtain ⟨scope, heap, declared, isT, library, ready⟩ :
      ∃ scope heap, execAll (call m) m (preamble curve) ⟨[("t", .number t)], [], []⟩ =
        Option.some (.next, ⟨scope, [], heap⟩) ∧ _ := printable.execAll_preamble t (by omega)
  have values : ∀ branch k, (branch, k) ∈ curve.branches.zipIdx →
      Yields (call m) ⟨scope, [], heap⟩ (branchValue k branch) (.number (branch.eval t)) := by
    intro branch k member
    have inside : branch ∈ curve.branches := List.fst_mem_of_mem_zipIdx member
    refine yields_branchValue isT (printable.finite branch inside) (printable.lines branch inside)
      (fun isCubic => library (List.any_eq_true.mpr ⟨branch, inside, isCubic⟩))
      (ready branch k member) (by omega)
  have returns : execAll (call m) m curve.script ⟨[("t", .number t)], [], []⟩ =
      Option.some (.returned (.number (Curve.evalBranches t curve.branches)), _) :=
    (execAll_append_next declared).trans
      (execAll_branchResults isT printable.finite printable.some values)
  unfold run
  rw [call_returned rfl (wellNamed_script curve) returns, eval_of_isFinite printable.some isFinite]
  rfl

end Running

end Script

end Easing
