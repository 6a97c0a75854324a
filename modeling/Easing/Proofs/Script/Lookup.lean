/-
**The script of a sampled curve runs as its lookup.**

The script declares the tables and then looks for `t` in them on its own: with another search, and
without the bounds that the lookup keeps its indices in. For the tables of a sampled compile both
come to the same table, and the bounds are kept anyway.

* `Looking`: what the statements after the tables see.
* `execAll_outside`, `execAll_search`, `execAll_inside`: the three parts after the tables.
* `run_lookup`: all of it.
-/
import Easing.Proofs.Curve.Tables
import Easing.Proofs.Script.Arrays
import Easing.Script.Lookup

set_option linter.unusedSectionVars false

namespace Easing.Script

variable {α : Type} [Scalar α]

/-! ### The tables in sight -/

/-- The ends of all tables. -/
def rangeRows (curve : SampledCurve α) : List (List α) :=
  curve.tables.toList.map fun table => [table.start, table.stop]

/-- The samples of all tables. -/
def sampleRows (curve : SampledCurve α) : List (List α) :=
  curve.tables.toList.map fun table => table.samples.toList

/-- The rows of an array of arrays that a name stands for. -/
def Names (state : State α) (name : String) (rows : List (List α)) : Prop :=
  ∃ address, state.find? name = some (.list address) ∧ Rows state.heap address rows

/-- The tables, under their names. -/
structure Tabled (curve : SampledCurve α) (state : State α) : Prop where
  ranges : Names state "ranges" (rangeRows curve)
  samples : Names state "samples" (sampleRows curve)

/-- What the search and the interpolation see. -/
structure Looking (curve : SampledCurve α) (t : α) (state : State α) : Prop
    extends Tabled curve state where
  t : state.find? "t" = some (.number t)

/-- The names that are seen. -/
def lookupNames : List String := ["t", "ranges", "samples"]

section Running

variable {curve : SampledCurve α} {t a : α} {last rounds i k : ℕ} {apply : Apply α}
  {state other : State α} {scope locals : Scope α} {heap : Heap α} {index column : Expr α}
  {table : SampleTable α} {name : String} {value : Value α}

theorem Names.of_agrees {rows : List (List α)} (names : Names state name rows)
    (agrees : Agrees lookupNames state other) (member : name ∈ lookupNames)
    (heap : other.heap = state.heap) : Names other name rows := by
  obtain ⟨address, found, stored⟩ := names
  exact ⟨address, (agrees name member).trans found, heap ▸ stored⟩

theorem Looking.of_agrees (looking : Looking curve t state)
    (agrees : Agrees lookupNames state other) (heap : other.heap = state.heap) :
    Looking curve t other where
  ranges := looking.ranges.of_agrees agrees (by decide) heap
  samples := looking.samples.of_agrees agrees (by decide) heap
  t := (agrees _ (by decide)).trans looking.t

theorem Looking.constant (looking : Looking curve t ⟨scope, locals, heap⟩)
    (absent : name ∉ lookupNames) : Looking curve t ⟨(name, value) :: scope, locals, heap⟩ :=
  looking.of_agrees (agrees_constant absent) rfl

theorem Looking.variable (looking : Looking curve t ⟨scope, locals, heap⟩)
    (absent : name ∉ lookupNames) : Looking curve t ⟨scope, (name, value) :: locals, heap⟩ :=
  looking.of_agrees (agrees_variable absent) rfl

/-! ### Declaring them -/

theorem tables_eq (curve : SampledCurve α) : tables curve =
    [.simple (.constant "ranges" (some .pairs) (.array (rowExprs (rangeRows curve)))),
      .table "samples" .rows (rowExprs (sampleRows curve))] := by
  unfold tables rowExprs rangeRows sampleRows
  rw [List.map_map, List.map_map]
  rfl

/-- The ends of finite tables are finite. -/
theorem finite_rangeRows (ends : ∀ table ∈ curve.tables,
    Scalar.isFinite table.start = true ∧ Scalar.isFinite table.stop = true) :
    ∀ row ∈ rangeRows curve, ∀ a ∈ row, Scalar.isFinite a = true := by
  intro row member a inside
  obtain ⟨table, isTable, rfl⟩ := List.mem_map.mp member
  obtain ⟨start, stop⟩ := ends table (Array.mem_toList_iff.mp isTable)
  rcases List.mem_pair.mp inside with rfl | rfl
  · exact start
  · exact stop

theorem finite_sampleRows
    (samples : ∀ table ∈ curve.tables, ∀ a ∈ table.samples, Scalar.isFinite a = true) :
    ∀ row ∈ sampleRows curve, ∀ a ∈ row, Scalar.isFinite a = true := by
  intro row member a inside
  obtain ⟨table, isTable, rfl⟩ := List.mem_map.mp member
  exact samples table (Array.mem_toList_iff.mp isTable) a (Array.mem_toList_iff.mp inside)

/-- **The text of the tables makes the tables of the curve**, in order. -/
theorem execAll_tables (apply : Apply α) (rounds : ℕ) (scope : Scope α) (heap : Heap α)
    (ends : ∀ table ∈ curve.tables,
      Scalar.isFinite table.start = true ∧ Scalar.isFinite table.stop = true)
    (samples : ∀ table ∈ curve.tables, ∀ a ∈ table.samples, Scalar.isFinite a = true) :
    ∃ ranges samples heap', execAll apply rounds (tables curve) ⟨scope, [], heap⟩ =
        some (.next, ⟨("samples", .list samples) :: ("ranges", .list ranges) :: scope, [], heap'⟩) ∧
      Rows heap' ranges (rangeRows curve) ∧ Rows heap' samples (sampleRows curve) := by
  refine ⟨heap.length + (rangeRows curve).length, _, _, ?_, ?_,
    rows_withTable (withTable heap (rangeRows curve)) (sampleRows curve)⟩
  · rw [tables_eq, execAll_next (exec_constant_rows (finite_rangeRows ends)),
      execAll_next (exec_table_rows (finite_sampleRows samples)), execAll_nil]
  · unfold withTable
    rw [List.append_assoc]
    exact (rows_withTable heap (rangeRows curve)).append

/-! ### Entries of the tables -/

variable [Indexing α]

section Entries

variable (looking : Looking curve t state) (few : curve.tables.size ≤ wholeLimit)
  (isTable : curve.tables[i]? = some table) (isIndex : Yields apply state index (.number (i : α)))

include looking few isTable isIndex

theorem Looking.exists_range : ∃ own,
    Yields apply state (.item (var "ranges") index) (.list own) ∧
      state.heap[own]? = some ([table.start, table.stop].map .number) := by
  obtain ⟨address, found, stored⟩ := looking.ranges
  refine (yields_var found).line isIndex stored ?_ ?_
  · unfold rangeRows
    rwa [List.length_map, Array.length_toList]
  · unfold rangeRows
    rw [List.getElem?_map, Array.getElem?_toList, isTable]
    rfl

/-- The cells of a row of `ranges`: its start is in the first column, its end in the second. -/
theorem Looking.yields_end (isEnd : [table.start, table.stop][k]? = some a) :
    Yields apply state (.item (.item (var "ranges") index) (whole k)) (.number a) := by
  obtain ⟨own, isRow, stored⟩ := looking.exists_range few isTable isIndex
  have two : 2 < wholeLimit := by decide
  have column : k < 2 := (List.getElem?_eq_some_iff.mp isEnd).1
  exact isRow.cell stored two.le (yields_natCast (column.trans two)) isEnd

theorem Looking.exists_samples : ∃ own,
    Yields apply state (.item (var "samples") index) (.list own) ∧
      state.heap[own]? = some (table.samples.toList.map .number) := by
  obtain ⟨address, found, stored⟩ := looking.samples
  refine (yields_var found).line isIndex stored ?_ ?_
  · unfold sampleRows
    rwa [List.length_map, Array.length_toList]
  · unfold sampleRows
    rw [List.getElem?_map, Array.getElem?_toList, isTable]
    rfl

end Entries

/-- A sample of a table. -/
theorem yields_sample {array : Expr α} {own : ℕ} (isArray : Yields apply state array (.list own))
    (stored : state.heap[own]? = some (table.samples.toList.map .number))
    (size : table.samples.size = last + 1) (small : last + 1 < wholeLimit)
    (isColumn : Yields apply state column (.number (k : α))) (within : k ≤ last) :
    Yields apply state (.item array column) (.number (table.get k)) := by
  refine isArray.cell stored ?_ isColumn (SampleTable.getElem?_samples size within)
  rw [Array.length_toList, size]
  exact Nat.le_of_lt small

/-- The index of the last sample of a table. -/
theorem yields_lastIndex {array : Expr α} {own : ℕ} (isArray : Yields apply state array (.list own))
    (stored : state.heap[own]? = some (table.samples.toList.map .number))
    (size : table.samples.size = last + 1) (small : last + 1 < wholeLimit) :
    Yields apply state (sub (.size array) (whole 1)) (.number (last : α)) := by
  have count := isArray.size stored
  rw [List.length_map, Array.length_toList, size] at count
  exact count.sub_one small

/-! ### Outside the tables -/

variable [OrderedScalar α] [Proportional α]

/-- The end of the script is reached with the value of the lookup. -/
def Returns (apply : Apply α) (rounds : ℕ) (statements : List (Stmt α)) (state : State α)
    (value : α) : Prop :=
  ∃ final, execAll apply rounds statements state = some (.returned (.number value), final)

theorem Returns.guarded {test result : Expr α} {rest : List (Stmt α)} {value : α}
    (isTest : Yields apply state test (.truth true))
    (isValue : Yields apply state result (.number value)) :
    Returns apply rounds (.guarded test (.result result) :: rest) state value :=
  ⟨state, execAll_returned (isTest.guarded.trans ((if_pos rfl).trans (simple_result isValue)))⟩

theorem execAll_passed {test : Expr α} {statement : Simple α} {rest : List (Stmt α)}
    (isTest : Yields apply state test (.truth false)) :
    execAll apply rounds (.guarded test statement :: rest) state =
      execAll apply rounds rest state :=
  execAll_next (isTest.guarded.trans (if_neg Bool.false_ne_true))

theorem Returns.next {statement : Stmt α} {rest : List (Stmt α)} {value : α}
    (first : exec apply rounds statement state = some (.next, other))
    (returns : Returns apply rounds rest other value) :
    Returns apply rounds (statement :: rest) state value := by
  obtain ⟨final, last⟩ := returns
  exact ⟨final, (execAll_next first).trans last⟩

theorem Returns.passed {test : Expr α} {statement : Simple α} {rest : List (Stmt α)} {value : α}
    (isTest : Yields apply state test (.truth false))
    (returns : Returns apply rounds rest state value) :
    Returns apply rounds (.guarded test statement :: rest) state value :=
  returns.next (isTest.guarded.trans (if_neg Bool.false_ne_true))

theorem lookup_of_ends {first final : SampleTable α} (isFirst : curve.tables[0]? = some first)
    (isFinal : curve.tables[curve.tables.size - 1]? = some final) :
    curve.lookup t = if Scalar.isNaN t then Scalar.nan else if t ≤ first.start then first.get 0
      else if final.stop ≤ t then final.last else
        match curve.tables[curve.tableIndex t]? with
        | some table => table.lookup t
        | none => Scalar.nan := by
  unfold SampledCurve.lookup
  rewrite [isFirst, Array.back?_eq_getElem?, isFinal]
  rfl

/-- Outside the tables, and at no number, the script returns what the lookup gives. Inside it goes
on. -/
theorem execAll_outside (tabulates : curve.Tabulates last) (small : last + 1 < wholeLimit)
    (few : curve.tables.size < wholeLimit) (looking : Looking curve t ⟨scope, [], heap⟩)
    {first final : SampleTable α} (isFirst : curve.tables[0]? = some first)
    (isFinal : curve.tables[curve.tables.size - 1]? = some final) :
    Returns apply rounds outside ⟨scope, [], heap⟩ (curve.lookup t) ∨
      (Scalar.IsNumber t ∧ ¬t ≤ first.start ∧ ¬final.stop ≤ t) ∧
        execAll apply rounds outside ⟨scope, [], heap⟩ = some (.next,
          ⟨("lastRange", .number ((curve.tables.size - 1 : ℕ) : α)) :: scope, [], heap⟩) := by
  have limit := Nat.le_of_lt few
  have sizeFirst := tabulates.size first (Array.mem_of_getElem? isFirst)
  have sizeFinal := tabulates.size final (Array.mem_of_getElem? isFinal)
  have isT : Yields apply ⟨scope, [], heap⟩ (var "t") (.number t) := yields_var looking.t
  rw [lookup_of_ends isFirst isFinal]
  cases number : Scalar.isNaN t with
  | true =>
    rw [if_pos rfl]
    exact .inl (Returns.guarded (number ▸ isT.isNaN) rfl)
  | false =>
    have notNaN : Yields apply ⟨scope, [], heap⟩ (.builtin .isNaN [var "t"]) (.truth false) :=
      number ▸ isT.isNaN
    rw [if_neg Bool.false_ne_true]
    have isLow : Yields apply ⟨scope, [], heap⟩
        (.binary .atMost (var "t") (.item (.item (var "ranges") (whole 0)) (whole 0)))
        (.truth (decide (t ≤ first.start))) :=
      isT.binary (looking.yields_end limit isFirst (yields_natCast (by decide)) rfl) rfl rfl
    by_cases low : t ≤ first.start
    · rw [if_pos low]
      rw [decide_eq_true low] at isLow
      have isZero : Yields apply ⟨scope, [], heap⟩ (whole 0) (.number ((0 : ℕ) : α)) :=
        yields_natCast (by decide)
      obtain ⟨own, isRow, stored⟩ := looking.exists_samples limit isFirst isZero
      exact .inl (.passed notNaN (Returns.guarded isLow
        (yields_sample isRow stored sizeFirst small isZero (Nat.zero_le last))))
    · rw [if_neg low]
      rw [decide_eq_false low] at isLow
      have isCount : Yields apply ⟨scope, [], heap⟩ (sub (.size (var "ranges")) (whole 1))
          (.number ((curve.tables.size - 1 : ℕ) : α)) := by
        obtain ⟨address, found, addresses, outer, inner⟩ := looking.ranges
        have isRanges : Yields apply ⟨scope, [], heap⟩ (var "ranges") (.list address) :=
          yields_var found
        have count := isRanges.size outer
        have length : addresses.length = curve.tables.size - 1 + 1 := by
          have same := congrArg List.length inner
          unfold rangeRows at same
          simp only [List.length_map, Array.length_toList] at same
          have nonempty := tabulates.nonempty
          omega
        rw [List.length_map, length] at count
        exact count.sub_one (by omega)
      generalize lastRange : curve.tables.size - 1 = final' at isFinal isCount ⊢
      have counted : Looking curve t
          ⟨("lastRange", .number (final' : α)) :: scope, [], heap⟩ := looking.constant (by decide)
      have isT' : Yields apply ⟨("lastRange", .number (final' : α)) :: scope, [], heap⟩ (var "t")
          (.number t) := yields_var counted.t
      have isLast : Yields apply ⟨("lastRange", .number (final' : α)) :: scope, [], heap⟩
          (var "lastRange") (.number (final' : α)) := yields_var rfl
      have isHigh : Yields apply ⟨("lastRange", .number (final' : α)) :: scope, [], heap⟩
          (.binary .atLeast (var "t") (.item (.item (var "ranges") (var "lastRange")) (whole 1)))
          (.truth (decide (final.stop ≤ t))) :=
        isT'.binary (counted.yields_end limit isFinal isLast rfl) rfl rfl
      have declared : exec apply rounds (.simple (.constant "lastRange" none
          (sub (.size (var "ranges")) (whole 1)))) ⟨scope, [], heap⟩ =
            some (.next, ⟨("lastRange", .number (final' : α)) :: scope, [], heap⟩) :=
        exec_constant isCount rfl
      by_cases high : final.stop ≤ t
      · rw [if_pos high]
        rw [decide_eq_true high] at isHigh
        obtain ⟨own, isRow, stored⟩ := counted.exists_samples limit isFinal isLast
        have value := yields_sample isRow stored sizeFinal small
          (yields_lastIndex isRow stored sizeFinal small) (Nat.le_refl last)
        have isValue : final.last = final.get last := by
          unfold SampleTable.last
          rw [sizeFinal]
          rfl
        rw [isValue]
        exact .inl (.passed notNaN (.passed isLow (.next declared (Returns.guarded isHigh value))))
      · rw [decide_eq_false high] at isHigh
        refine .inr ⟨⟨number, low, high⟩, ?_⟩
        unfold outside
        dsimp only
        rw [execAll_passed notNaN, execAll_passed isLow, execAll_next declared,
          execAll_passed isHigh, execAll_nil]

/-! ### The search -/

/-- The test of the search. -/
def halvingTest : Expr α := .binary .less (var "lo") (var "hi")

/-- One round of the search. -/
def halvingRound : List (Stmt α) :=
  [ .simple (.constant "mid" none (.binary .shiftRight (add (var "lo") (var "hi")) (whole 1))),
    .either (.binary .less (.item (.item (var "ranges") (var "mid")) (whole 1)) (var "t"))
      (.assign "lo" (add (var "mid") (whole 1))) (.assign "hi" (var "mid")) ]

/-- The stretch of tables that is still searched, under its names. -/
def stretch (lo hi : ℕ) : Scope α := [("hi", .number (hi : α)), ("lo", .number (lo : α))]

theorem wellNamed_halvingRound : wellNamed [] (halvingRound : List (Stmt α)) = true := by cbv

theorem exec_loop {test : Expr α} {body : List (Stmt α)} (named : wellNamed [] body = true) :
    exec apply rounds (.loop test body) state =
      repeatWhile (holds apply test) (inBlock (execAll apply rounds body)) rounds state :=
  if_pos named

/-- A round of the search goes on with the half that holds `t`. -/
theorem inBlock_halvingRound (few : curve.tables.size ≤ 2 ^ 30)
    (looking : Looking curve t ⟨scope, [], heap⟩) {lo hi : ℕ} (less : lo < hi)
    (inside : hi < curve.tables.size) :
    inBlock (execAll apply rounds halvingRound) ⟨scope, stretch lo hi, heap⟩ =
      some (.next, ⟨scope,
        if curve.endsBefore t ((lo + hi) / 2) then stretch ((lo + hi) / 2 + 1) hi
          else stretch lo ((lo + hi) / 2), heap⟩) := by
  have limit : curve.tables.size < wholeLimit := Nat.lt_of_le_of_lt few (by decide)
  have sum : lo + hi < wholeLimit := Nat.lt_of_lt_of_le (by omega : lo + hi < 2 ^ 31) (by decide)
  obtain ⟨table, isTable⟩ : ∃ table, curve.tables[(lo + hi) / 2]? = some table :=
    ⟨_, Array.getElem?_eq_getElem (by omega)⟩
  have isEnds : curve.endsBefore t ((lo + hi) / 2) = decide (table.stop < t) := by
    unfold SampledCurve.endsBefore
    rw [isTable]
    rfl
  generalize middle : (lo + hi) / 2 = mid at isTable isEnds ⊢
  have isMid : Yields apply ⟨scope, stretch lo hi, heap⟩
      (.binary .shiftRight (add (var "lo") (var "hi")) (whole 1)) (.number (mid : α)) := by
    rw [← middle]
    exact ((yields_var rfl).add_natCast (yields_var rfl) sum).halve (by omega)
  have held : Looking curve t ⟨("mid", .number (mid : α)) :: scope, stretch lo hi, heap⟩ :=
    ((looking.variable (by decide)).variable (by decide)).constant (by decide)
  have isVar : Yields apply ⟨("mid", .number (mid : α)) :: scope, stretch lo hi, heap⟩ (var "mid")
      (.number (mid : α)) := yields_var rfl
  have isTest : Yields apply ⟨("mid", .number (mid : α)) :: scope, stretch lo hi, heap⟩
      (.binary .less (.item (.item (var "ranges") (var "mid")) (whole 1)) (var "t"))
      (.truth (curve.endsBefore t mid)) := by
    rw [isEnds]
    exact (held.yields_end limit.le isTable isVar rfl).binary (yields_var held.t) rfl rfl
  have chosen : exec apply rounds
      (.either (.binary .less (.item (.item (var "ranges") (var "mid")) (whole 1)) (var "t"))
        (.assign "lo" (add (var "mid") (whole 1))) (.assign "hi" (var "mid")))
      ⟨("mid", .number (mid : α)) :: scope, stretch lo hi, heap⟩ =
        some (.next, ⟨("mid", .number (mid : α)) :: scope,
          if curve.endsBefore t mid then stretch (mid + 1) hi else stretch lo mid, heap⟩) := by
    rw [isTest.either]
    cases curve.endsBefore t mid with
    | true =>
      rw [if_pos rfl, if_pos rfl]
      exact simple_assign (isVar.add_natCast (yields_natCast (by decide)) (by omega))
    | false =>
      rw [if_neg Bool.false_ne_true, if_neg Bool.false_ne_true]
      exact simple_assign isVar
  have runs : execAll apply rounds halvingRound ⟨scope, stretch lo hi, heap⟩ = _ :=
    (execAll_next (exec_constant isMid rfl)).trans ((execAll_single _).trans chosen)
  exact inBlock_of runs (by split <;> rfl)

/-- **The search ends with the first table that does not end before `t`.** -/
theorem repeatWhile_halving (few : curve.tables.size ≤ 2 ^ 30)
    (looking : Looking curve t ⟨scope, [], heap⟩) {found : ℕ}
    (finds : ∀ i, curve.endsBefore t i = true ↔ i < found) {limit lo hi : ℕ} (low : lo ≤ found)
    (high : found ≤ hi) (inside : hi < curve.tables.size) (enough : hi - lo < rounds) :
    repeatWhile (holds apply halvingTest) (inBlock (execAll apply limit halvingRound)) rounds
        ⟨scope, stretch lo hi, heap⟩ =
      some (.next, ⟨scope, stretch found found, heap⟩) := by
  have size : curve.tables.size < wholeLimit := Nat.lt_of_le_of_lt few (by decide)
  have test : ∀ lo hi : ℕ, lo ≤ hi → hi < curve.tables.size →
      holds apply halvingTest ⟨scope, stretch lo hi, heap⟩ =
        some (decide (lo < hi), ⟨scope, stretch lo hi, heap⟩) := by
    intro lo hi le inside
    have isTest : Yields apply ⟨scope, stretch lo hi, heap⟩ halvingTest
        (.truth (decide ((lo : α) < (hi : α)))) := (yields_var rfl).binary (yields_var rfl) rfl rfl
    rw [holds_of_yields isTest, decide_eq_decide.mpr (Indexing.natCast_lt (by omega) (by omega))]
  induction rounds generalizing lo hi with
  | zero => omega
  | succ rounds ih =>
    have tested := test lo hi (low.trans high) inside
    rcases Nat.lt_or_ge lo hi with less | ge
    · rw [decide_eq_true less] at tested
      rw [repeatWhile_true tested, repeatAfter_next (inBlock_halvingRound few looking less inside)]
      cases ends : curve.endsBefore t ((lo + hi) / 2) with
      | true =>
        rw [if_pos rfl]
        exact ih ((finds _).mp ends) high inside (by omega)
      | false =>
        rw [if_neg Bool.false_ne_true]
        have notBefore : ¬(lo + hi) / 2 < found := fun before => by
          rw [(finds _).mpr before] at ends
          cases ends
        exact ih low (Nat.le_of_not_lt notBefore) (by omega) (by omega)
    · obtain rfl : lo = found := by omega
      obtain rfl : hi = lo := by omega
      rw [decide_eq_false (Nat.lt_irrefl _)] at tested
      exact repeatWhile_false tested

theorem execAll_search (few : curve.tables.size ≤ 2 ^ 30)
    (looking : Looking curve t ⟨scope, [], heap⟩) {found final : ℕ}
    (isLast : (State.mk scope [] heap).find? "lastRange" = some (.number (final : α)))
    (finds : ∀ i, curve.endsBefore t i = true ↔ i < found) (within : found ≤ final)
    (inside : final < curve.tables.size) (enough : curve.tables.size ≤ rounds) :
    execAll apply rounds search ⟨scope, [], heap⟩ =
      some (.next, ⟨scope, stretch found found, heap⟩) := by
  have declaredLo : exec apply rounds (.simple (.variable "lo" (whole 0))) ⟨scope, [], heap⟩ =
      some (.next, ⟨scope, [("lo", .number ((0 : ℕ) : α))], heap⟩) :=
    exec_variable (yields_natCast (by decide))
  have isFinal : Yields apply ⟨scope, [("lo", .number ((0 : ℕ) : α))], heap⟩ (var "lastRange")
      (.number (final : α)) := yields_var isLast
  refine (execAll_next declaredLo).trans ((execAll_next (exec_variable isFinal)).trans ?_)
  refine (execAll_single _).trans ((exec_loop wellNamed_halvingRound).trans ?_)
  exact repeatWhile_halving few looking finds (Nat.zero_le _) within inside (by omega)

/-! ### Inside a table -/

theorem exec_constantPair {first second : String} {expr : Expr α} {own : ℕ} {a b : Value α}
    (isPair : Yields apply ⟨scope, locals, heap⟩ expr (.list own))
    (stored : heap[own]? = some [a, b]) (free : locals.lookup first = none)
    (free' : locals.lookup second = none) :
    exec apply rounds (.simple (.constantPair first second expr)) ⟨scope, locals, heap⟩ =
      some (.next, ⟨(second, b) :: (first, a) :: scope, locals, heap⟩) := by
  unfold Yields at isPair
  rw [exec_simple]
  unfold Simple.exec
  dsimp only
  rw [isPair]
  dsimp only
  rw [stored]
  dsimp only [State.declare]
  rw [free, Option.isSome_none, if_neg Bool.false_ne_true, Option.bind_some, free',
    Option.isSome_none, if_neg Bool.false_ne_true]
  rfl

/-- What the interpolation sees of its table. -/
structure Interpolating (table : SampleTable α) (last : ℕ) (t : α) (own : ℕ) (state : State α) :
    Prop where
  t : state.find? "t" = some (.number t)
  start : state.find? "start" = some (.number table.start)
  stop : state.find? "end" = some (.number table.stop)
  list : state.find? "table" = some (.list own)
  n : state.find? "n" = some (.number ((last + 1 : ℕ) : α))
  samples : state.heap[own]? = some (table.samples.toList.map .number)

/-- The names that are seen. -/
def tableNames : List String := ["t", "start", "end", "table", "n"]

theorem Interpolating.constant {own : ℕ}
    (seen : Interpolating table last t own ⟨scope, locals, heap⟩) (absent : name ∉ tableNames) :
    Interpolating table last t own ⟨(name, value) :: scope, locals, heap⟩ where
  t := (agrees_constant absent _ (by decide)).trans seen.t
  start := (agrees_constant absent _ (by decide)).trans seen.start
  stop := (agrees_constant absent _ (by decide)).trans seen.stop
  list := (agrees_constant absent _ (by decide)).trans seen.list
  n := (agrees_constant absent _ (by decide)).trans seen.n
  samples := seen.samples

/-- The statements after the names of a table return what is interpolated in it. -/
theorem returns_interpolation (tabulates : curve.Tabulates last) (small : last + 1 < wholeLimit)
    (member : table ∈ curve.tables) (low : table.start < t) (high : t ≤ table.stop) {own found : ℕ}
    (seen : Interpolating table last t own ⟨scope, stretch found found, heap⟩) :
    Returns apply rounds (List.drop 3 inside) ⟨scope, stretch found found, heap⟩
      (table.lookup t) := by
  have size := tabulates.size table member
  have limit : last < wholeLimit := Nat.lt_of_succ_lt small
  have apart : (t == table.start) = false :=
    Bool.eq_false_iff.mpr fun same => Scalar.not_le_of_lt low (OrderedScalar.beq_iff.mp same).1
  -- what the names stand for, in any of the states that follow
  have isLast : ∀ {scope : Scope α},
      Interpolating table last t own ⟨scope, stretch found found, heap⟩ →
      Yields apply ⟨scope, stretch found found, heap⟩ (sub (var "n") (whole 1))
        (.number (last : α)) := fun seen => (yields_var seen.n).sub_one small
  have isSample : ∀ {scope : Scope α} {column : Expr α} {k : ℕ},
      Interpolating table last t own ⟨scope, stretch found found, heap⟩ → k ≤ last →
      Yields apply ⟨scope, stretch found found, heap⟩ column (.number (k : α)) →
      Yields apply ⟨scope, stretch found found, heap⟩ (.item (var "table") column)
        (.number (table.get k)) := fun seen within isColumn =>
    yields_sample (yields_var seen.list) seen.samples size small isColumn within
  rw [tabulates.lookup_inside small member low high]
  refine .passed (apart ▸ (yields_var seen.t).binary (yields_var seen.start) rfl rfl) ?_
  have isEnd : Yields apply ⟨scope, stretch found found, heap⟩
      (.binary .equal (var "t") (var "end")) (.truth (t == table.stop)) :=
    (yields_var seen.t).binary (yields_var seen.stop) rfl rfl
  cases atEnd : t == table.stop with
  | true =>
    rw [if_pos rfl]
    exact Returns.guarded (atEnd ▸ isEnd) (isSample seen le_rfl (isLast seen))
  | false =>
    rw [if_neg Bool.false_ne_true]
    refine .passed (atEnd ▸ isEnd) ?_
    obtain ⟨nonneg, le⟩ := tabulates.place_mem limit member low high
    have isPlace := (((yields_var seen.t).sub (yields_var seen.start)).div
      ((yields_var seen.stop).sub (yields_var seen.start))).mul (isLast seen)
    dsimp only
    generalize (t - table.start) / (table.stop - table.start) * (last : α) = place
      at nonneg le isPlace ⊢
    have within := (Indexing.floorNat_spec small nonneg le).1
    refine .next (exec_constant isPlace rfl) ?_
    refine .next (exec_constant ((yields_var rfl).floor small nonneg le) rfl) ?_
    generalize Scalar.floorNat place = floor at within ⊢
    have floored : Interpolating table last t own ⟨("floor", .number (floor : α)) ::
        ("position", .number place) :: scope, stretch found found, heap⟩ :=
      (seen.constant (by decide)).constant (by decide)
    refine .next (exec_constant (((yields_var rfl).add_natCast (yields_natCast (by decide))
      (by omega)).min (isLast floored) (by omega) limit) rfl) ?_
    have ready : Interpolating table last t own ⟨("ceil", .number ((min (floor + 1) last : ℕ) : α)) ::
        ("floor", .number (floor : α)) :: ("position", .number place) :: scope,
        stretch found found, heap⟩ := floored.constant (by decide)
    have isVar : ∀ {name : String} {value : Value α}, (State.mk
        (("ceil", .number ((min (floor + 1) last : ℕ) : α)) :: ("floor", .number (floor : α)) ::
          ("position", .number place) :: scope) (stretch found found) heap).find? name = some value →
        Yields apply _ (var name) value := fun found => yields_var found
    have isFloor := isSample ready within (isVar (rfl : State.find? _ "floor" = _))
    have isCeil := isSample ready (Nat.min_le_right _ _) (isVar (rfl : State.find? _ "ceil" = _))
    exact ⟨_, (execAll_single _).trans (exec_result (isFloor.add
      ((isCeil.sub isFloor).mul ((yields_var rfl).sub (yields_var rfl)))))⟩

/-- **Inside a table the script interpolates as the lookup does.** -/
theorem execAll_inside (tabulates : curve.Tabulates last) (small : last + 1 < wholeLimit)
    (few : curve.tables.size ≤ wholeLimit) (looking : Looking curve t ⟨scope, [], heap⟩)
    {found : ℕ} (isTable : curve.tables[found]? = some table) (low : table.start < t)
    (high : t ≤ table.stop) :
    Returns apply rounds inside ⟨scope, stretch found found, heap⟩ (table.lookup t) := by
  have member := Array.mem_of_getElem? isTable
  have size := tabulates.size table member
  have held : Looking curve t ⟨scope, stretch found found, heap⟩ :=
    (looking.variable (by decide)).variable (by decide)
  have isLo : Yields apply ⟨scope, stretch found found, heap⟩ (var "lo") (.number (found : α)) :=
    yields_var rfl
  obtain ⟨pair, isPair, stored⟩ := held.exists_range few isTable isLo
  refine .next (exec_constantPair isPair stored rfl rfl) ?_
  have paired : Looking curve t ⟨("end", .number table.stop) :: ("start", .number table.start) :: scope,
      stretch found found, heap⟩ := (held.constant (by decide)).constant (by decide)
  have isLo' : Yields apply ⟨("end", .number table.stop) :: ("start", .number table.start) :: scope,
      stretch found found, heap⟩ (var "lo") (.number (found : α)) := yields_var rfl
  obtain ⟨own, isRow, samples⟩ := paired.exists_samples few isTable isLo'
  refine .next (exec_constant isRow rfl) ?_
  refine .next (exec_constant ((yields_var rfl).size samples) rfl) ?_
  have count : (table.samples.toList.map Value.number).length = last + 1 := by
    rw [List.length_map, Array.length_toList, size]
  rw [count]
  have seen : Interpolating table last t own ⟨("n", .number ((last + 1 : ℕ) : α)) ::
      ("table", .list own) :: ("end", .number table.stop) :: ("start", .number table.start) :: scope,
      stretch found found, heap⟩ :=
    ⟨((paired.constant (by decide)).constant (by decide)).t, rfl, rfl, rfl, rfl, samples⟩
  exact returns_interpolation tabulates small member low high seen

/-! ### The whole script -/

theorem uses_literals (row : List α) : Expr.usesAll (row.map .literal) = [] := by
  induction row with
  | nil => rfl
  | cons a row ih => exact ih

theorem uses_rowExprs (rows : List (List α)) : Expr.usesAll (rowExprs rows) = [] := by
  induction rows with
  | nil => rfl
  | cons row rows ih =>
    show Expr.usesAll (row.map .literal) ++ Expr.usesAll (rowExprs rows) = []
    rw [uses_literals, ih, List.nil_append]

/-- Every name of the script is declared once, and before it is used. -/
theorem wellNamed_lookup (curve : SampledCurve α) : wellNamed ["t"] curve.script = true := by
  have names : blockNames curve.script = ["ranges", "samples", "lastRange", "lo", "hi", "start",
      "end", "table", "n", "position", "floor", "ceil"] := rfl
  have rest : ordered (outside ++ search ++ inside : List (Stmt α)) = true := by cbv
  have script : curve.script =
      .simple (.constant "ranges" (some .pairs) (.array (rowExprs (rangeRows curve)))) ::
        .table "samples" .rows (rowExprs (sampleRows curve)) :: (outside ++ search ++ inside) := by
    unfold SampledCurve.script
    rw [tables_eq]
    rfl
  unfold wellNamed
  rw [names, script, ordered, ordered, rest]
  show (_ && ((Expr.usesAll (rowExprs (rangeRows curve))).all _ &&
    ((Expr.usesAll (rowExprs (sampleRows curve))).all _ && true))) = true
  rw [uses_rowExprs, uses_rowExprs, List.all_nil, List.all_nil, Bool.and_true, Bool.and_true]
  decide

theorem Returns.append {front back : List (Stmt α)} {value : α}
    (first : execAll apply rounds front state = some (.next, other))
    (returns : Returns apply rounds back other value) :
    Returns apply rounds (front ++ back) state value := by
  obtain ⟨final, last⟩ := returns
  exact ⟨final, (execAll_append_next first).trans last⟩

/-- **The script of a sampled curve runs as its lookup**, at every `t`. -/
theorem run_lookup (tabulates : curve.Tabulates last) (small : last + 1 < wholeLimit)
    (few : curve.tables.size ≤ 2 ^ 30) (t : α) {depth : ℕ} (deep : curve.tables.size < depth) :
    run depth curve.script t = some (.number (curve.lookup t)) := by
  have limit : curve.tables.size < wholeLimit := Nat.lt_of_le_of_lt few (by decide)
  have nonempty := tabulates.nonempty
  obtain ⟨m, rfl⟩ : ∃ m, depth = m + 1 := Nat.exists_eq_succ_of_ne_zero (by omega)
  have returns : Returns (call m) m curve.script ⟨[("t", .number t)], [], []⟩ (curve.lookup t) := by
    obtain ⟨ranges, samples, heap, declared, isRanges, isSamples⟩ :=
      execAll_tables (call m) m [("t", .number t)] [] tabulates.ends tabulates.samples
    have looking : Looking curve t
        ⟨[("samples", .list samples), ("ranges", .list ranges), ("t", .number t)], [], heap⟩ :=
      ⟨⟨⟨ranges, rfl, isRanges⟩, ⟨samples, rfl, isSamples⟩⟩, rfl⟩
    obtain ⟨first, isFirst⟩ : ∃ first, curve.tables[0]? = some first :=
      ⟨_, Array.getElem?_eq_getElem nonempty⟩
    obtain ⟨final, isFinal⟩ : ∃ final, curve.tables[curve.tables.size - 1]? = some final :=
      ⟨_, Array.getElem?_eq_getElem (by omega)⟩
    unfold SampledCurve.script
    rw [List.append_assoc, List.append_assoc]
    refine Returns.append declared ?_
    rcases execAll_outside tabulates small limit looking isFirst isFinal with
      ⟨last, ends⟩ | ⟨⟨number, low, high⟩, goesOn⟩
    · exact ⟨last, execAll_append_returned ends⟩
    refine Returns.append goesOn ?_
    obtain ⟨table, isTable, below, above, finds⟩ :=
      tabulates.exists_table isFirst isFinal number low high
    have inRange : curve.tableIndex t < curve.tables.size :=
      (Array.getElem?_eq_some_iff.mp isTable).1
    have counted : Looking curve t ⟨[("lastRange", .number ((curve.tables.size - 1 : ℕ) : α)),
        ("samples", .list samples), ("ranges", .list ranges), ("t", .number t)], [], heap⟩ :=
      looking.constant (by decide)
    have searched : execAll (call m) m search _ = _ :=
      execAll_search few counted rfl finds (by omega) (by omega) (by omega)
    have value : curve.lookup t = table.lookup t := by
      rw [lookup_of_ends isFirst isFinal, if_neg (Bool.eq_false_iff.mp number), if_neg low,
        if_neg high, isTable]
    rw [value]
    exact Returns.append searched
      (execAll_inside tabulates small limit.le counted isTable below above)
  obtain ⟨last, ends⟩ := returns
  unfold run
  rw [call_returned rfl (wellNamed_lookup curve) ends]
  rfl

end Running

end Easing.Script
