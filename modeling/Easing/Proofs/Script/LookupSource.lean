/-
**The source of a sampled compile runs as its lookup.**

Every row of samples is a line of the text. So the tables of a text that can be held at all are few
and short enough for the script to count in them.

* `length_rowLine`: what a row of samples adds to the text.
* `tables_of_length`: the tables of a text that is not too long.
* `compile_sampled_source_runs`: the text of a sampled compile, read and run.
-/
import Easing.Proofs.Binary64.Whole
import Easing.Proofs.Script.Lookup
import Easing.Proofs.Script.Source

set_option linter.unusedSectionVars false

namespace Easing

namespace Script

/-! ### The length of the text -/

section Text

variable {α : Type} [Scalar α] [Numeral α]

theorem length_unlines (lines : List String) :
    (unlines lines).length = (lines.map fun line => line.length + 1).sum := by
  unfold unlines
  rw [String.length_join, List.map_map]
  refine congrArg List.sum (List.map_congr_left fun line _ => ?_)
  exact String.length_append line "\n"

theorem length_commas_ge (texts : List String) : 2 * texts.length ≤ (commas texts).length + 2 := by
  unfold commas
  induction texts with
  | nil => exact Nat.zero_le _
  | cons text rest ih =>
    cases rest with
    | nil => exact Nat.le_add_left _ _
    | cons next rest =>
      rw [String.intercalate_cons_cons, String.length_append, String.length_append]
      have comma : (", " : String).length = 2 := rfl
      rw [List.length_cons]
      omega

theorem Expr.texts_eq_map (rows : List (Expr α)) :
    Expr.texts .untyped rows = rows.map (Expr.text .untyped) := by
  induction rows with
  | nil => rfl
  | cons row rest ih => rw [Expr.texts, ih, List.map_cons]

/-- The line of a row of samples, inside the table and inside the function. -/
def rowLine (row : List α) : String :=
  bodyLine ("  " ++ (Expr.text .untyped (.array (row.map .literal)) ++ ","))

/-- A row takes two characters for each of its numbers, and some more. -/
theorem length_rowLine (row : List α) : 2 * row.length + 5 ≤ (rowLine row).length := by
  have separators := length_commas_ge ((row.map Expr.literal).map (Expr.text .untyped))
  have spaces : ("  " : String).length = 2 := rfl
  have opening : ("[" : String).length = 1 := rfl
  have closing : ("]" : String).length = 1 := rfl
  have comma : ("," : String).length = 1 := rfl
  have own : (Expr.text .untyped (.array (row.map .literal)) : String).length =
      1 + (commas ((row.map Expr.literal).map (Expr.text .untyped))).length + 1 := by
    rw [Expr.text, Expr.texts_eq_map, String.length_append, String.length_append, opening, closing]
  rw [List.length_map, List.length_map] at separators
  unfold rowLine bodyLine
  split
  next empty =>
    have none := congrArg String.length (String.isEmpty_iff.mp empty)
    rw [String.length_append, spaces] at none
    cases (Nat.add_eq_zero_iff.mp none).1
  next =>
    rw [String.length_append, String.length_append, String.length_append, own, spaces, comma]
    omega

/-- The rows of samples are lines of the text. -/
theorem rows_sublist (curve : SampledCurve α) : ((sampleRows curve).map rowLine).Sublist
    ([header .untyped] ++ (Stmt.allLines .untyped curve.script).map bodyLine ++ ["\x7d"]) := by
  have rows : (indent ((rowExprs (sampleRows curve)).map fun row => row.text .untyped ++ ",")).map
      bodyLine = (sampleRows curve).map rowLine := by
    unfold indent rowExprs
    rw [List.map_map, List.map_map, List.map_map]
    rfl
  have lines : Stmt.allLines .untyped curve.script =
      Stmt.lines .untyped (.simple (.constant "ranges" (some .pairs)
          (.array (rowExprs (rangeRows curve))))) ++
        (Stmt.lines .untyped (.table "samples" .rows (rowExprs (sampleRows curve))) ++
          Stmt.allLines .untyped (outside ++ search ++ inside : List (Stmt α))) := by
    unfold SampledCurve.script
    rw [tables_eq]
    rfl
  rw [← rows, lines, Stmt.lines.eq_def (.untyped) (.table ..)]
  simp only [List.map_append]
  refine List.Sublist.trans ?_ (List.sublist_append_left _ _)
  refine List.Sublist.trans ?_ (List.sublist_append_right _ _)
  refine List.Sublist.trans ?_ (List.sublist_append_right _ _)
  refine List.Sublist.trans ?_ (List.sublist_append_left _ _)
  refine List.Sublist.trans ?_ (List.sublist_append_left _ _)
  exact List.sublist_append_right _ _

/-- **The tables of a text that is not too long are few and short.** -/
theorem tables_of_length {curve : SampledCurve α} {last : ℕ} (tabulates : curve.Tabulates last)
    (held : (curve.source .untyped).length < 2 ^ 32) :
    curve.tables.size ≤ 2 ^ 30 ∧ last + 1 < wholeLimit := by
  have total : ((sampleRows curve).map fun row => (rowLine row).length + 1).sum < 2 ^ 32 := by
    refine Nat.lt_of_le_of_lt ?_ held
    have lengths : (sampleRows curve).map (fun row => (rowLine row).length + 1) =
        ((sampleRows curve).map rowLine).map fun line => line.length + 1 := by
      rw [List.map_map]
      rfl
    unfold SampledCurve.source wrapLines
    rw [length_unlines, lengths]
    exact ((rows_sublist curve).map _).sum_le_sum fun _ _ => Nat.zero_le _
  constructor
  · have each : ∀ n ∈ (sampleRows curve).map fun row => (rowLine row).length + 1, 6 ≤ n := by
      intro n member
      obtain ⟨row, -, rfl⟩ := List.mem_map.mp member
      have := length_rowLine row
      omega
    have count := List.card_nsmul_le_sum _ 6 each
    have size : (sampleRows curve).length = curve.tables.size := by
      unfold sampleRows
      rw [List.length_map, Array.length_toList]
    rw [List.length_map, size, smul_eq_mul] at count
    omega
  · obtain ⟨table, first⟩ : ∃ table, table ∈ curve.tables :=
      ⟨_, Array.getElem_mem tabulates.nonempty⟩
    have member : (rowLine table.samples.toList).length + 1 ∈
        (sampleRows curve).map fun row => (rowLine row).length + 1 :=
      List.mem_map.mpr ⟨_, List.mem_map.mpr ⟨table, Array.mem_toList_iff.mpr first, rfl⟩, rfl⟩
    have one := List.le_sum_of_mem member
    have long := length_rowLine table.samples.toList
    rw [Array.length_toList, tabulates.size table first] at long
    have limit : wholeLimit = 2 ^ 53 := rfl
    omega

end Text

/-! ### The tables in the text -/

section Tables

variable {α : Type} [Scalar α]

theorem allPlain_rowExprs {reads : α → Bool} {rows : List (List α)}
    (finite : ∀ row ∈ rows, ∀ a ∈ row, reads a = true) :
    Expr.allPlain reads (rowExprs rows) = true := by
  have literals {row : List α} (finite : ∀ a ∈ row, reads a = true) :
      Expr.allPlain reads (row.map .literal) = true := by
    induction row with
    | nil => rfl
    | cons a row ih =>
      exact Bool.and_eq_true_iff.mpr ⟨finite a List.mem_cons_self,
        ih fun b member => finite b (List.mem_cons_of_mem a member)⟩
  induction rows with
  | nil => rfl
  | cons row rows ih =>
    exact Bool.and_eq_true_iff.mpr ⟨literals (finite row List.mem_cons_self),
      ih fun other member => finite other (List.mem_cons_of_mem row member)⟩

/-- The statements that make the tables, as they are read: the ends of all intervals, and all
samples, in order. -/
def readTables (curve : SampledCurve α) : List (Stmt α) :=
  [ .simple (.constant "ranges" none
      (.array (curve.tables.toList.map fun table =>
        .array [.literal table.start, .literal table.stop]))),
    .simple (.constant "samples" none
      (.array (curve.tables.toList.map fun table =>
        .array (table.samples.toList.map .literal)))) ]

/-- Without their layout the tables are arrays. -/
theorem core_script (curve : SampledCurve α) :
    core curve.script = readTables curve ++ core (outside ++ search ++ inside) := by
  unfold SampledCurve.script
  rw [List.append_assoc, List.append_assoc, ← List.append_assoc outside, core_append]
  rfl

theorem execAll_readTables {apply : Apply α} {rounds : ℕ} {state : State α}
    (curve : SampledCurve α) :
    execAll apply rounds (readTables curve) state = execAll apply rounds (tables curve) state := by
  unfold readTables tables
  rw [execAll_cons, execAll_cons]
  simp only [execAll_single, exec_table_eq]
  rfl

end Tables

/-- **The script of finite tables is read back from its text.** -/
theorem allPlain_script_of_tabulates {curve : SampledCurve Float} {last : ℕ}
    (tabulates : curve.Tabulates last) : Stmt.allPlain Scalar.isFinite curve.script = true := by
  have rest : Stmt.allPlain Scalar.isFinite (outside ++ search ++ inside : List (Stmt Float)) =
      true := by decide +kernel
  have names : isName "ranges" = true ∧ isName "samples" = true := by decide +kernel
  unfold SampledCurve.script
  rw [List.append_assoc, List.append_assoc, ← List.append_assoc outside]
  refine allPlain_append ?_ rest
  rw [tables_eq]
  simp [Stmt.allPlain, Stmt.plain, Simple.plain, Expr.plain, names,
    allPlain_rowExprs (finite_rangeRows tabulates.ends),
    allPlain_rowExprs (finite_sampleRows tabulates.samples)]

/-! ### The source of a path -/

/-- **The source of a sampled compile runs as its lookup.** The text without annotations reads as a
function of `t`. Its first two statements are the tables of the curve, and make them: the ends of
all intervals and all samples, in order. The function returns the value of the lookup at every `t`,
be it finite, infinite or no number. The text is one that can be held: no engine takes one of
`2 ^ 32` characters, and with more tables than fit in there the halving would leave the numbers that
can be shifted. -/
theorem compile_sampled_source_runs {pool : SolverPool Float} {path : Path Float}
    {options : CompileOptions} {compiled : Compiled Float} {curve : SampledCurve Float}
    (ok : (compile pool path options).1 = .ok compiled)
    (isSampled : compiled.function = .sampled curve)
    (held : (curve.source .untyped).length < 2 ^ 32) :
    (∃ rest, readFunction decimalLiteral? (curve.source .untyped) =
        some ⟨"interpolate", ["t"], readTables curve ++ rest⟩) ∧
      (∀ apply rounds scope heap, ∃ state,
        execAll apply rounds (readTables curve) ⟨scope, [], heap⟩ = some (.next, state) ∧
          Names state "ranges" (curve.tables.toList.map fun table => [table.start, table.stop]) ∧
          Names state "samples" (curve.tables.toList.map fun table => table.samples.toList)) ∧
      ∀ (t : Float) (depth : ℕ), curve.tables.size < depth →
        runText depth (curve.source .untyped) t = some (.number (curve.lookup t)) := by
  have tabulates := compile_tabulates ok isSampled
  obtain ⟨few, small⟩ := tables_of_length tabulates held
  have isRead : readFunction decimalLiteral? (curve.source .untyped) =
      some ⟨"interpolate", ["t"], core curve.script⟩ :=
    readFunction_wrapLines (fun _ finite => denotes_plain finite)
      (allPlain_script_of_tabulates tabulates)
      (not_mem_feed_script (.sampled curve))
  refine ⟨⟨_, isRead.trans (by rw [core_script])⟩, fun apply rounds scope heap => ?_,
    fun t depth deep => runText_of_core isRead (run_lookup tabulates small few t deep)⟩
  obtain ⟨ranges, samples, arrays, declared, isRanges, isSamples⟩ :=
    execAll_tables apply rounds scope heap tabulates.ends tabulates.samples
  exact ⟨_, (execAll_readTables curve).trans declared, ⟨ranges, rfl, isRanges⟩,
    ⟨samples, rfl, isSamples⟩⟩

theorem length_le_utf8ByteSize (text : String) : text.length ≤ text.utf8ByteSize := by
  rw [← String.utf8Len_toList, ← String.length_toList]
  induction text.toList with
  | nil => exact Nat.le_refl 0
  | cons c rest ih =>
    have positive := c.utf8Size_pos
    rw [String.utf8Len_cons, List.length_cons]
    omega

/-- A straight path. -/
def straightLine : Path Float where
  segments := [⟨Knot.corner ⟨0, 0⟩, ⟨0⟩⟩, ⟨Knot.corner ⟨1, 1⟩, ⟨1⟩⟩]
  domain := 1

/-- The source of two samples of a line, read halfway and at no number. -/
theorem sampled_source_runs_line :
    ∃ compiled, (compile SolverPool.empty straightLine ⟨true, false, 2⟩).1 = .ok compiled ∧
      ∃ curve, compiled.function = .sampled curve ∧ (curve.source .untyped).length < 2 ^ 32 ∧
        curve.tables.size < 2 ∧
        runText 2 (curve.source .untyped) 0.5 = some (.number (curve.lookup 0.5)) ∧
        runText 2 (curve.source .untyped) Scalar.nan = some (.number (curve.lookup Scalar.nan)) := by
  have compiles : ((compile SolverPool.empty straightLine ⟨true, false, 2⟩).1.toOption.any
      fun compiled => match compiled.function with
        | .sampled curve => decide (curve.tables.size < 2) &&
            decide ((curve.source .untyped).utf8ByteSize < 2 ^ 32)
        | .exact _ => false) = true := by
    decide +kernel
  cases ok : (compile SolverPool.empty straightLine ⟨true, false, 2⟩).1 with
  | error error =>
    rw [ok] at compiles
    cases compiles
  | ok compiled =>
    rw [ok] at compiles
    change (match compiled.function with
      | .sampled curve => decide (curve.tables.size < 2) &&
          decide ((curve.source .untyped).utf8ByteSize < 2 ^ 32)
      | .exact _ => false) = true at compiles
    cases isSampled : compiled.function with
    | exact curve =>
      rw [isSampled] at compiles
      cases compiles
    | sampled curve =>
      rw [isSampled] at compiles
      simp only [Bool.and_eq_true, decide_eq_true_eq] at compiles
      obtain ⟨few, short⟩ := compiles
      have held := Nat.lt_of_le_of_lt (length_le_utf8ByteSize (curve.source .untyped)) short
      obtain ⟨-, -, runs⟩ := compile_sampled_source_runs ok isSampled held
      exact ⟨compiled, rfl, curve, isSampled, held, few, runs _ 2 few, runs _ 2 few⟩

end Script

end Easing
