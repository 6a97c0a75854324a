/-
**Running scripts on arrays of arrays.**

A table in a script is an array of rows of numbers. The arrays are reached through their addresses;
what matters of them are the rows (`Rows`), which stay what they are when arrays are added.

* `Yields.entry`, `Yields.line`, `Yields.cell`: entries at whole numbers below the limit.
* `Yields.halve`, `Yields.floor`, `Yields.min`: the operations on such numbers.
* `exec_constant_rows`, `exec_table_rows`: what the text of a table makes; `rows_withTable`.
-/
import Easing.Proofs.Scalar.Order
import Easing.Proofs.Script.Rules

set_option linter.unusedSectionVars false

namespace Easing.Script

variable {α : Type} [Scalar α]

/-! ### Entries -/

section Entries

variable [Indexing α] {apply : Apply α} {state : State α} {array index left right : Expr α}
  {address i k n : ℕ} {entries : List (Value α)} {value : Value α} {a b : α}

theorem entryAt_natCast (short : entries.length ≤ wholeLimit) (found : entries[n]? = some value) :
    entryAt entries (n : α) = some value := by
  have within : n < entries.length := (List.getElem?_eq_some_iff.mp found).1
  have place : ((List.range entries.length).find? fun (i : ℕ) => (i : α) == (n : α)) = some n := by
    rw [List.find?_range_eq_some]
    refine ⟨?_, List.mem_range.mpr within, fun i before => ?_⟩
    · rw [Indexing.natCast_beq (by omega) (by omega)]
      exact beq_self_eq_true n
    · rw [Indexing.natCast_beq (by omega) (by omega), beq_eq_false_iff_ne.mpr (by omega)]
      rfl
  unfold entryAt
  rw [place]
  exact found

/-- An entry of an array, at any index below the limit. -/
theorem Yields.entry (isArray : Yields apply state array (.list address))
    (isIndex : Yields apply state index (.number (n : α)))
    (stored : state.heap[address]? = some entries) (short : entries.length ≤ wholeLimit)
    (found : entries[n]? = some value) : Yields apply state (.item array index) value := by
  unfold Yields at *
  rw [eval_item, isArray]
  dsimp only
  rw [isIndex]
  dsimp only
  rw [stored, Option.bind_some, entryAt_natCast short found]
  rfl

theorem Yields.size (isArray : Yields apply state array (.list address))
    (stored : state.heap[address]? = some entries) :
    Yields apply state (.size array) (.number ((entries.length : ℕ) : α)) := by
  unfold Yields at *
  rw [eval_size, isArray]
  dsimp only
  rw [stored]
  rfl

/-! ### Whole numbers -/

theorem yields_natCast (small : n < wholeLimit) :
    Yields apply state (whole n) (.number (n : α)) :=
  yields_literal (Indexing.isFinite_natCast small)

theorem Yields.add_natCast (first : Yields apply state left (.number (i : α)))
    (second : Yields apply state right (.number (k : α))) (small : i + k < wholeLimit) :
    Yields apply state (Script.add left right) (.number ((i + k : ℕ) : α)) := by
  rw [← Indexing.add_natCast small]
  exact first.add second

theorem Yields.sub_one (first : Yields apply state left (.number ((n + 1 : ℕ) : α)))
    (small : n + 1 < wholeLimit) :
    Yields apply state (Script.sub left (whole 1)) (.number (n : α)) := by
  rw [← Indexing.sub_one small]
  exact first.sub (yields_natCast (by omega))

/-- A shift by one bit halves a whole number. -/
theorem Yields.halve (first : Yields apply state left (.number (n : α))) (small : n < 2 ^ 31) :
    Yields apply state (.binary .shiftRight left (whole 1)) (.number ((n / 2 : ℕ) : α)) := by
  have limit : n < wholeLimit := Nat.lt_trans small (by decide)
  refine first.binary (yields_natCast (by decide)) rfl ?_
  have self : ∀ {m : ℕ}, m < wholeLimit → ((m : α) == (m : α)) = true := fun {m} bound => by
    rw [Indexing.natCast_beq bound bound]
    exact beq_self_eq_true m
  show (if _ then _ else _) = _
  rw [Indexing.floorNat_natCast limit, Indexing.floorNat_natCast (by decide : 1 < wholeLimit),
    self limit, self (by decide), if_pos (by simpa using small), Nat.shiftRight_eq_div_pow,
    Nat.pow_one]

theorem Yields.floor (first : Yields apply state left (.number a)) (small : n + 1 < wholeLimit)
    (low : 0 ≤ a) (high : a ≤ (n : α)) :
    Yields apply state (.builtin .floor [left]) (.number ((Scalar.floorNat a : ℕ) : α)) := by
  obtain ⟨-, le, lt⟩ := Indexing.floorNat_spec small low high
  unfold Yields at *
  show (evalAll apply [left] state).bind _ = _
  rw [Yields.cons first evalAll_nil]
  show ((if _ then _ else _ : Option (Value α)).map _) = _
  rw [if_pos ⟨le, lt⟩]
  rfl

theorem Yields.min (first : Yields apply state left (.number (i : α)))
    (second : Yields apply state right (.number (k : α))) (small : i < wholeLimit)
    (small' : k < wholeLimit) :
    Yields apply state (.builtin .min [left, right]) (.number ((min i k : ℕ) : α)) := by
  have number : ∀ {m : ℕ}, m < wholeLimit → Scalar.isNaN (m : α) = false := fun {m} bound => by
    have finite := Indexing.isFinite_natCast (α := α) bound
    unfold Scalar.isFinite at finite
    rw [Bool.and_eq_true, Bool.not_eq_true'] at finite
    exact finite.1
  have least : Builtin.apply .min [.number (i : α), .number (k : α)] =
      some (.number ((Min.min i k : ℕ) : α)) := by
    show (if _ then _ else _) = _
    rw [number small, number small', if_neg (by decide)]
    rcases Nat.lt_trichotomy i k with less | rfl | greater
    · rw [if_neg (by rw [Indexing.natCast_lt small' small]; omega), if_pos,
        Nat.min_eq_left (Nat.le_of_lt less)]
      rw [decide_eq_true ((Indexing.natCast_lt small small').mpr less)]
      rfl
    · rw [if_neg (by rw [Indexing.natCast_lt small' small]; omega), if_pos, Nat.min_self]
      rw [Indexing.same_natCast, Bool.or_true]
    · rw [if_pos ((Indexing.natCast_lt small' small).mpr greater),
        Nat.min_eq_right (Nat.le_of_lt greater)]
  unfold Yields at *
  show (evalAll apply [left, right] state).bind _ = _
  rw [Yields.cons first (Yields.cons second evalAll_nil)]
  show (Builtin.apply .min _).map _ = _
  rw [least]
  rfl

theorem Yields.isNaN (first : Yields apply state left (.number a)) :
    Yields apply state (.builtin .isNaN [left]) (.truth (Scalar.isNaN a)) := by
  unfold Yields at *
  show (evalAll apply [left] state).bind _ = _
  rw [Yields.cons first evalAll_nil]
  rfl

end Entries

/-! ### Rows -/

/-- The rows of an array of arrays of numbers. -/
def Rows (heap : Heap α) (address : ℕ) (rows : List (List α)) : Prop :=
  ∃ addresses : List ℕ, heap[address]? = some (addresses.map .list) ∧
    addresses.map (heap[·]?) = rows.map fun row => some (row.map .number)

section Tables

variable {apply : Apply α} {state : State α} {heap more : Heap α} {address i k : ℕ} {row : List α}
  {rows : List (List α)} {array index column : Expr α} {a : α}

theorem getElem?_append_of_some {stored : List (Value α)} (found : heap[address]? = some stored) :
    (heap ++ more)[address]? = some stored := by
  rw [List.getElem?_append_left (List.getElem?_eq_some_iff.mp found).1, found]

/-- Rows stay what they are when arrays are added. -/
theorem Rows.append (stored : Rows heap address rows) : Rows (heap ++ more) address rows := by
  obtain ⟨addresses, outer, inner⟩ := stored
  refine ⟨addresses, getElem?_append_of_some outer, ?_⟩
  rw [← inner]
  refine List.map_congr_left fun own member => ?_
  obtain ⟨row, -, found⟩ := List.mem_map.mp (inner ▸ List.mem_map_of_mem member)
  exact (getElem?_append_of_some found.symm).trans found

/-- A row, by its address. -/
theorem Rows.exists_row (stored : Rows heap address rows) (found : rows[i]? = some row) :
    ∃ addresses : List ℕ, ∃ own, heap[address]? = some (addresses.map .list) ∧
      addresses.length = rows.length ∧ addresses[i]? = some own ∧
      heap[own]? = some (row.map .number) := by
  obtain ⟨addresses, outer, inner⟩ := stored
  have length : addresses.length = rows.length := by simpa using congrArg List.length inner
  have entry := congrArg (·[i]?) inner
  simp only [List.getElem?_map, found, Option.map_some] at entry
  obtain ⟨own, isOwn, isRow⟩ := Option.map_eq_some_iff.mp entry
  exact ⟨addresses, own, outer, length, isOwn, isRow⟩

theorem Yields.line [Indexing α] (isArray : Yields apply state array (.list address))
    (isIndex : Yields apply state index (.number (i : α))) (stored : Rows state.heap address rows)
    (short : rows.length ≤ wholeLimit) (found : rows[i]? = some row) :
    ∃ own, Yields apply state (.item array index) (.list own) ∧
      state.heap[own]? = some (row.map .number) := by
  obtain ⟨addresses, own, outer, length, isOwn, isRow⟩ := stored.exists_row found
  refine ⟨own, isArray.entry isIndex outer (by rwa [List.length_map, length]) ?_, isRow⟩
  rw [List.getElem?_map, isOwn]
  rfl

/-- A number of a row. -/
theorem Yields.cell [Indexing α] (isArray : Yields apply state array (.list address))
    (stored : state.heap[address]? = some (row.map .number)) (short : row.length ≤ wholeLimit)
    (isColumn : Yields apply state column (.number (k : α))) (found : row[k]? = some a) :
    Yields apply state (.item array column) (.number a) := by
  refine isArray.entry isColumn stored (by rwa [List.length_map]) ?_
  rw [List.getElem?_map, found]
  rfl

/-! ### Texts of tables -/

/-- The text of a table: a row of numbers in each entry. -/
def rowExprs (rows : List (List α)) : List (Expr α) := rows.map fun row => .array (row.map .literal)

theorem evalAll_literals (finite : ∀ a ∈ row, Scalar.isFinite a = true) :
    evalAll apply (row.map .literal) state = some (row.map .number, state) := by
  induction row with
  | nil => rfl
  | cons a row ih =>
    exact Yields.cons (yields_literal (finite a List.mem_cons_self))
      (ih fun b member => finite b (List.mem_cons_of_mem _ member))

theorem evalAll_rows (finite : ∀ row ∈ rows, ∀ a ∈ row, Scalar.isFinite a = true) :
    evalAll apply (rowExprs rows) state =
      some ((List.range' state.heap.length rows.length).map .list,
        { state with heap := state.heap ++ rows.map (·.map .number) }) := by
  induction rows generalizing state with
  | nil =>
    show some ([], state) = some ([], _)
    rw [List.map_nil, List.append_nil]
  | cons row rows ih =>
    have first : eval apply (.array (row.map .literal)) state =
        some (state.allocate (row.map .number)) := by
      show (evalAll apply (row.map .literal) state).map _ = _
      rw [evalAll_literals (finite row List.mem_cons_self)]
      rfl
    show evalAll apply (.array (row.map .literal) :: rowExprs rows) state = _
    rw [evalAll_cons, first, Option.bind_some]
    dsimp only [State.allocate]
    rw [ih fun other member => finite other (List.mem_cons_of_mem _ member)]
    simp only [Option.map_some, List.length_append, List.length_cons, List.length_nil, Nat.zero_add,
      List.range'_succ, List.map_cons, List.append_assoc, List.cons_append, List.nil_append]

/-- The arrays after a table was made: its rows, and then the array that holds them. -/
def withTable (heap : Heap α) (rows : List (List α)) : Heap α :=
  heap ++ rows.map (·.map .number) ++ [(List.range' heap.length rows.length).map .list]

theorem rows_withTable (heap : Heap α) (rows : List (List α)) :
    Rows (withTable heap rows) (heap.length + rows.length) rows := by
  refine ⟨List.range' heap.length rows.length, ?_, ?_⟩
  · unfold withTable
    rw [List.getElem?_append_right (by simp), List.length_append, List.length_map, Nat.sub_self]
    rfl
  · refine List.ext_getElem? fun i => ?_
    rw [List.getElem?_map, List.getElem?_map]
    by_cases inside : i < rows.length
    · rw [List.getElem?_range' inside, List.getElem?_eq_getElem inside]
      simp [withTable, List.getElem?_append, inside]
    · rw [List.getElem?_eq_none (by simpa using inside), List.getElem?_eq_none (by omega)]
      rfl

/-- Allocating the array of the rows. -/
theorem allocate_rows {scope locals : Scope α} (heap : Heap α) (rows : List (List α)) :
    (State.mk scope locals (heap ++ rows.map (·.map .number))).allocate
        ((List.range' heap.length rows.length).map .list) =
      (.list (heap.length + rows.length), ⟨scope, locals, withTable heap rows⟩) := by
  unfold State.allocate withTable
  simp only [List.length_append, List.length_map]

/-- The text of a table, as a value. -/
theorem exec_constant_rows {rounds : ℕ} {scope : Scope α} {heap : Heap α} {name : String}
    {kind : Option Kind} (finite : ∀ row ∈ rows, ∀ a ∈ row, Scalar.isFinite a = true) :
    exec apply rounds (.simple (.constant name kind (.array (rowExprs rows)))) ⟨scope, [], heap⟩ =
      some (.next,
        ⟨(name, .list (heap.length + rows.length)) :: scope, [], withTable heap rows⟩) := by
  have value : eval apply (.array (rowExprs rows)) ⟨scope, [], heap⟩ =
      some (.list (heap.length + rows.length), ⟨scope, [], withTable heap rows⟩) := by
    show (evalAll apply (rowExprs rows) ⟨scope, [], heap⟩).map _ = _
    rw [evalAll_rows finite, Option.map_some]
    exact congrArg some (allocate_rows heap rows)
  show (eval apply (.array (rowExprs rows)) ⟨scope, [], heap⟩).bind _ = _
  rw [value]
  rfl

/-- The text of a table, each row on a line of its own. -/
theorem exec_table_rows {rounds : ℕ} {scope : Scope α} {heap : Heap α} {name : String} {kind : Kind}
    (finite : ∀ row ∈ rows, ∀ a ∈ row, Scalar.isFinite a = true) :
    exec apply rounds (.table name kind (rowExprs rows)) ⟨scope, [], heap⟩ =
      some (.next,
        ⟨(name, .list (heap.length + rows.length)) :: scope, [], withTable heap rows⟩) := by
  rw [exec_table_eq]
  exact exec_constant_rows finite

end Tables

end Easing.Script
