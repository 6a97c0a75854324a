/-
**How long a solver is shared.**

A pool is asked for control points and swept, in any order. A sweep keeps what was asked for since
the sweep before, so a solver is given again until two sweeps have passed without a request for it.
One that was dropped never comes back, and no request for other control points gives it.

* `PoolCall`, `SolverPool.afterCalls`: what a pool is used for, and the pool after that.
* `Given`: the control points that were given with fewer than so many sweeps since.
* `SolverPool.mem_keys_afterCalls`: the pool has what was given with fewer than two sweeps since.
* `SolverPool.Numbered`, `SolverPool.numbered_afterCalls`: no serial number is there twice.
* `SolverPool.sharing_law`: which requests give the same object, and how many solvers are kept.
-/
import Easing.Proofs.Curve.Retention

set_option linter.unusedSectionVars false

namespace Easing

variable {α : Type} [Scalar α]

/-! ### Calls -/

/-- What a pool is used for. -/
inductive PoolCall (α : Type) where
  /-- The solver with some control points is asked for. -/
  | get (c : Controls α)
  | sweep

namespace PoolCall

/-- The call is a sweep. -/
def isSweep : PoolCall α → Bool
  | .get _ => false
  | .sweep => true

/-- The pool after a call. -/
def run (call : PoolCall α) (pool : SolverPool α) : SolverPool α :=
  match call with
  | .get c =>
    match pool.get c with
    | .ok result => result.2
    | .error _ => pool
  | .sweep => pool.sweep

theorem run_get_ok {pool : SolverPool α} {c : Controls α} {result : SharedSolver α × SolverPool α}
    (ok : pool.get c = .ok result) : (get c).run pool = result.2 := by
  simp only [run, ok]

theorem run_get_error {pool : SolverPool α} {c : Controls α} {error : CurveError α}
    (failed : pool.get c = .error error) : (get c).run pool = pool := by
  simp only [run, failed]

end PoolCall

/-- The number of sweeps among calls. -/
def sweeps (calls : List (PoolCall α)) : Nat := calls.countP (·.isSweep)

theorem sweeps_append (calls calls' : List (PoolCall α)) :
    sweeps (calls ++ calls') = sweeps calls + sweeps calls' := List.countP_append

@[simp] theorem sweeps_get (c : Controls α) (calls : List (PoolCall α)) :
    sweeps (.get c :: calls) = sweeps calls :=
  List.countP_cons_of_neg Bool.false_ne_true

@[simp] theorem sweeps_snoc_get (calls : List (PoolCall α)) (c : Controls α) :
    sweeps (calls ++ [.get c]) = sweeps calls := sweeps_append _ _

@[simp] theorem sweeps_snoc_sweep (calls : List (PoolCall α)) :
    sweeps (calls ++ [.sweep]) = sweeps calls + 1 := sweeps_append _ _

namespace SolverPool

/-- The pool after calls, one after another. -/
def runCalls (calls : List (PoolCall α)) (pool : SolverPool α) : SolverPool α :=
  calls.foldl (fun pool call => call.run pool) pool

/-- A new pool after calls. -/
def afterCalls (calls : List (PoolCall α)) : SolverPool α := runCalls calls empty

theorem runCalls_append (calls calls' : List (PoolCall α)) (pool : SolverPool α) :
    runCalls (calls ++ calls') pool = runCalls calls' (runCalls calls pool) := List.foldl_append

theorem afterCalls_snoc (calls : List (PoolCall α)) (call : PoolCall α) :
    afterCalls (calls ++ [call]) = call.run (afterCalls calls) := runCalls_append calls [call] empty

theorem afterCalls_split (before after : List (PoolCall α)) (call : PoolCall α) :
    afterCalls (before ++ call :: after) = runCalls after (call.run (afterCalls before)) :=
  runCalls_append before (call :: after) empty

end SolverPool

/-! ### What was given -/

/-- The control points were given, with fewer sweeps since than the bound. -/
def Given (bound : Nat) (calls : List (PoolCall α)) (c : Controls α) : Prop :=
  ∃ before after result, calls = before ++ .get c :: after ∧
    (SolverPool.afterCalls before).get c = .ok result ∧ sweeps after < bound

/-- A call is the last one, or stands before it. -/
theorem snoc_eq_split_iff {β : Type} {items before after : List β} {last item : β} :
    items ++ [last] = before ++ item :: after ↔
      (after = [] ∧ items = before ∧ last = item) ∨
        ∃ rest, after = rest ++ [last] ∧ items = before ++ item :: rest := by
  constructor
  · intro same
    induction after using List.reverseRecOn with
    | nil =>
      obtain ⟨front, back⟩ := List.append_inj' same rfl
      exact .inl ⟨rfl, front, List.singleton_inj.mp back⟩
    | append_singleton rest other =>
      rw [← List.cons_append, ← List.append_assoc] at same
      obtain ⟨front, back⟩ := List.append_inj' same rfl
      rw [List.singleton_inj.mp back]
      exact .inr ⟨rest, rfl, front⟩
  · rintro (⟨rfl, rfl, rfl⟩ | ⟨rest, rfl, rfl⟩)
    · rfl
    · rw [List.append_assoc, List.cons_append]

theorem not_given_zero {calls : List (PoolCall α)} {c : Controls α} : ¬Given 0 calls c := by
  rintro ⟨_, _, _, -, -, absurdity⟩
  exact absurd absurdity (Nat.not_lt_zero _)

theorem not_given_nil {bound : Nat} {c : Controls α} : ¬Given bound [] c := by
  rintro ⟨before, after, _, none, -⟩
  exact List.append_ne_nil_of_right_ne_nil before (List.cons_ne_nil _ _) none.symm

/-- After a request the control points are given that were given before, and those of the request
when it succeeds. -/
theorem given_snoc_get {bound : Nat} {calls : List (PoolCall α)} {c d : Controls α} :
    Given bound (calls ++ [.get d]) c ↔ Given bound calls c ∨
      0 < bound ∧ d = c ∧ ∃ result, (SolverPool.afterCalls calls).get d = .ok result := by
  constructor
  · rintro ⟨before, after, result, split, ok, few⟩
    rcases snoc_eq_split_iff.mp split with ⟨rfl, rfl, same⟩ | ⟨rest, rfl, rfl⟩
    · obtain rfl := PoolCall.get.inj same
      exact .inr ⟨few, rfl, result, ok⟩
    · rw [sweeps_snoc_get] at few
      exact .inl ⟨before, rest, result, rfl, ok, few⟩
  · rintro (⟨before, after, result, rfl, ok, few⟩ | ⟨positive, rfl, result, ok⟩)
    · refine ⟨before, after ++ [.get d], result, ?_, ok, ?_⟩
      · rw [List.append_assoc, List.cons_append]
      · rwa [sweeps_snoc_get]
    · exact ⟨calls, [], result, rfl, ok, positive⟩

/-- After a sweep everything was given one sweep longer ago. -/
theorem given_snoc_sweep {bound : Nat} {calls : List (PoolCall α)} {c : Controls α} :
    Given (bound + 1) (calls ++ [.sweep]) c ↔ Given bound calls c := by
  constructor
  · rintro ⟨before, after, result, split, ok, few⟩
    rcases snoc_eq_split_iff.mp split with ⟨-, -, same⟩ | ⟨rest, rfl, rfl⟩
    · cases same
    · rw [sweeps_snoc_sweep] at few
      exact ⟨before, rest, result, rfl, ok, Nat.lt_of_succ_lt_succ few⟩
  · rintro ⟨before, after, result, rfl, ok, few⟩
    refine ⟨before, after ++ [.sweep], result, ?_, ok, ?_⟩
    · rw [List.append_assoc, List.cons_append]
    · rw [sweeps_snoc_sweep]
      exact Nat.succ_lt_succ few

/-- When control points were given within a bound, and not again after some request for them, then
the sweeps after that request are within the bound too. -/
theorem Given.of_split {bound : Nat} {before between : List (PoolCall α)} {c : Controls α}
    (given : Given bound (before ++ .get c :: between) c) (away : .get c ∉ between) :
    sweeps between < bound := by
  obtain ⟨front, back, _, split, -, few⟩ := given
  rcases List.append_eq_append_iff.mp split with ⟨more, rfl, same⟩ | ⟨more, rfl, same⟩
  · cases more with
    | nil =>
      obtain ⟨-, rfl⟩ := List.cons.inj same
      exact few
    | cons call more =>
      obtain ⟨-, rfl⟩ := List.cons.inj same
      exact absurd (List.mem_append_right _ List.mem_cons_self) away
  · cases more with
    | nil =>
      obtain ⟨-, rfl⟩ := List.cons.inj same
      exact few
    | cons call more =>
      rw [List.cons_append] at same
      obtain ⟨-, rfl⟩ := List.cons.inj same
      rw [sweeps_append, sweeps_get] at few
      exact (Nat.le_add_left _ _).trans_lt few

namespace SolverPool

/-! ### One call -/

section Lawful

variable [LawfulSame α] [ReflSame α] {pool : SolverPool α}

/-- What is found is there. -/
theorem mem_keys_of_find? {c : Controls α} {shared : SharedSolver α}
    (found : pool.find? c = some shared) : c ∈ pool.keys := by
  obtain ⟨entry, isEntry, -⟩ := Option.map_eq_some_iff.mp found
  have kept := List.find?_some isEntry
  have same : entry.solver.toControls = c := Controls.eq_of_same kept
  exact List.mem_map.mpr ⟨entry, List.mem_of_find?_eq_some isEntry, same⟩

/-- A request finds a solver and marks it, or makes a new one. -/
theorem get_cases {c : Controls α} {result : SharedSolver α × SolverPool α}
    (ok : pool.get c = .ok result) :
    pool.find? c = some result.1 ∧ result.2 = pool.markRequested c ∨
      pool.find? c = none ∧ ∃ solver, solver.toControls = c ∧ result = pool.add solver := by
  unfold get at ok
  cases found : pool.find? c with
  | some shared =>
    rw [found] at ok
    obtain rfl := Except.ok.inj ok
    exact .inl ⟨rfl, rfl⟩
  | none =>
    rw [found] at ok
    cases built : UnitCubic.ofControls c with
    | error error =>
      rw [built] at ok
      cases ok
    | ok solver =>
      rw [built] at ok
      obtain rfl := Except.ok.inj ok
      exact .inr ⟨rfl, solver, UnitCubic.toControls_of_ok built, rfl⟩

/-- After a request there is one more solver at most, under the next number. -/
theorem keeps_of_get {c : Controls α} {result : SharedSolver α × SolverPool α}
    (ok : pool.get c = .ok result) {shared : SharedSolver α} (keeps : result.2.Keeps shared) :
    pool.Keeps shared ∨ shared = result.1 ∧ shared.serial = pool.nextSerial := by
  rcases get_cases ok with ⟨-, marked⟩ | ⟨-, solver, -, rfl⟩
  · rw [marked] at keeps
    exact .inl (keeps_markRequested.mp keeps)
  · obtain ⟨entry, member, rfl⟩ := keeps
    rcases List.mem_append.mp member with member | member
    · exact .inl ⟨entry, member, rfl⟩
    · rw [List.mem_singleton.mp member]
      exact .inr ⟨rfl, rfl⟩

theorem mem_keys_of_get {c d : Controls α} {result : SharedSolver α × SolverPool α}
    (ok : pool.get c = .ok result) : d ∈ result.2.keys ↔ d ∈ pool.keys ∨ c = d := by
  rcases get_cases ok with ⟨found, marked⟩ | ⟨-, solver, rfl, rfl⟩
  · rw [marked, keys_markRequested]
    exact ⟨.inl, fun either => either.elim id fun same => same ▸ mem_keys_of_find? found⟩
  · rw [keys_add, List.mem_append, List.mem_singleton, eq_comm]

/-- No two solvers of a pool have one serial number, and every number that it gave is below the
next one. -/
structure Numbered (pool : SolverPool α) : Prop where
  keyed : pool.Keyed
  serial_lt : ∀ shared, pool.Keeps shared → shared.serial < pool.nextSerial
  unique : ∀ shared shared', pool.Keeps shared → pool.Keeps shared' →
    shared.serial = shared'.serial → shared = shared'

theorem numbered_empty : (empty : SolverPool α).Numbered where
  keyed := keyed_empty
  serial_lt := by rintro shared ⟨_, ⟨⟩, -⟩
  unique := by rintro shared _ ⟨_, ⟨⟩, -⟩

theorem Numbered.get (numbered : pool.Numbered) {c : Controls α}
    {result : SharedSolver α × SolverPool α} (ok : pool.get c = .ok result) :
    result.2.Numbered where
  keyed := numbered.keyed.get ok
  serial_lt shared keeps := by
    obtain ⟨grows, -⟩ := get_grows ok
    rcases grows.fresh shared keeps with old | ⟨-, below⟩
    · exact (numbered.serial_lt shared old).trans_le grows.nextSerial_le
    · exact below
  unique shared shared' keeps keeps' same := by
    rcases keeps_of_get ok keeps with old | ⟨rfl, next⟩ <;>
      rcases keeps_of_get ok keeps' with old' | ⟨rfl, next'⟩
    · exact numbered.unique shared shared' old old' same
    · have := numbered.serial_lt shared old
      omega
    · have := numbered.serial_lt shared' old'
      omega
    · rfl

theorem Numbered.sweep (numbered : pool.Numbered) : pool.sweep.Numbered where
  keyed := numbered.keyed.sweep
  serial_lt shared keeps := numbered.serial_lt shared (numbered.keyed.keeps_sweep.mp keeps).1
  unique shared shared' keeps keeps' :=
    numbered.unique shared shared' (numbered.keyed.keeps_sweep.mp keeps).1
      (numbered.keyed.keeps_sweep.mp keeps').1

theorem Numbered.run (numbered : pool.Numbered) (call : PoolCall α) :
    (call.run pool).Numbered := by
  cases call with
  | sweep => exact numbered.sweep
  | get c =>
    cases got : pool.get c with
    | error error => rwa [PoolCall.run_get_error got]
    | ok result =>
      rw [PoolCall.run_get_ok got]
      exact numbered.get got

/-- A call gives new solvers new numbers. -/
theorem Numbered.fresh_run (numbered : pool.Numbered) (call : PoolCall α) :
    pool.nextSerial ≤ (call.run pool).nextSerial ∧ ∀ shared, (call.run pool).Keeps shared →
      pool.Keeps shared ∨ pool.nextSerial ≤ shared.serial := by
  cases call with
  | sweep => exact ⟨Nat.le_refl _, fun shared keeps => .inl (numbered.keyed.keeps_sweep.mp keeps).1⟩
  | get c =>
    cases got : pool.get c with
    | error error =>
      rw [PoolCall.run_get_error got]
      exact ⟨Nat.le_refl _, fun _ => .inl⟩
    | ok result =>
      rw [PoolCall.run_get_ok got]
      obtain ⟨grows, -⟩ := get_grows got
      exact ⟨grows.nextSerial_le, fun shared keeps => (grows.fresh shared keeps).imp_right And.left⟩

/-- A solver is kept by a request, and by a sweep when it was asked for. -/
theorem Numbered.keeps_run (numbered : pool.Numbered) {call : PoolCall α}
    {shared : SharedSolver α} (keeps : pool.Keeps shared)
    (asked : call = .sweep → pool.Asked shared.solver.toControls) :
    (call.run pool).Keeps shared := by
  cases call with
  | sweep => exact numbered.keyed.keeps_sweep.mpr ⟨keeps, asked rfl⟩
  | get c =>
    cases got : pool.get c with
    | error error => rwa [PoolCall.run_get_error got]
    | ok result =>
      rw [PoolCall.run_get_ok got]
      exact (get_grows got).1.kept shared keeps

/-! ### Any calls -/

theorem Numbered.runCalls (numbered : pool.Numbered) (calls : List (PoolCall α)) :
    (runCalls calls pool).Numbered := by
  induction calls generalizing pool with
  | nil => exact numbered
  | cons call calls ih => exact ih (numbered.run call)

/-- **No serial number is there twice.** -/
theorem numbered_afterCalls (calls : List (PoolCall α)) : (afterCalls calls).Numbered :=
  numbered_empty.runCalls calls

theorem Numbered.fresh_runCalls (numbered : pool.Numbered) (calls : List (PoolCall α)) :
    pool.nextSerial ≤ (SolverPool.runCalls calls pool).nextSerial ∧
      ∀ shared, (SolverPool.runCalls calls pool).Keeps shared →
        pool.Keeps shared ∨ pool.nextSerial ≤ shared.serial := by
  induction calls generalizing pool with
  | nil => exact ⟨Nat.le_refl _, fun _ => .inl⟩
  | cons call calls ih =>
    obtain ⟨step, fresh⟩ := numbered.fresh_run call
    obtain ⟨later, fresh'⟩ := ih (numbered.run call)
    refine ⟨step.trans later, fun shared keeps => ?_⟩
    rcases fresh' shared keeps with early | late
    · exact fresh shared early
    · exact .inr (step.trans late)

/-- What a pool is marked for and what it has, told from the calls alone. -/
theorem asked_and_keys_afterCalls (calls : List (PoolCall α)) (c : Controls α) :
    ((afterCalls calls).Asked c ↔ Given 1 calls c) ∧
      (c ∈ (afterCalls calls).keys ↔ Given 2 calls c) := by
  induction calls using List.reverseRecOn with
  | nil =>
    refine ⟨iff_of_false ?_ not_given_nil, iff_of_false List.not_mem_nil not_given_nil⟩
    rintro ⟨_, ⟨⟩, -⟩
  | append_singleton calls call ih =>
    obtain ⟨asked, keys⟩ := ih
    rw [afterCalls_snoc]
    cases call with
    | sweep =>
      rw [given_snoc_sweep, given_snoc_sweep, ← asked]
      refine ⟨iff_of_false (not_asked_sweep _ c) not_given_zero, ?_⟩
      have keyed := (numbered_afterCalls calls).keyed
      rw [mem_keys_iff]
      constructor
      · rintro ⟨shared, keeps, rfl⟩
        exact (keyed.keeps_sweep.mp keeps).2
      · intro given
        obtain ⟨entry, member, rfl, -⟩ := id given
        exact ⟨_, keyed.keeps_sweep.mpr ⟨⟨entry, member, rfl⟩, given⟩, rfl⟩
    | get d =>
      rw [given_snoc_get, given_snoc_get, ← asked, ← keys]
      cases got : (afterCalls calls).get d with
      | error error =>
        rw [PoolCall.run_get_error got]
        simp
      | ok result =>
        rw [PoolCall.run_get_ok got, (get_grows got).1.asked_iff, mem_keys_of_get got,
          List.mem_singleton, eq_comm (a := c)]
        simp

/-- **A pool has what was given with fewer than two sweeps since.** -/
theorem mem_keys_afterCalls {calls : List (PoolCall α)} {c : Controls α} :
    c ∈ (afterCalls calls).keys ↔ Given 2 calls c := (asked_and_keys_afterCalls calls c).2

/-- A solver that was given is kept until the second sweep. -/
theorem keeps_between {before between : List (PoolCall α)} {c : Controls α}
    {result : SharedSolver α × SolverPool α} (ok : (afterCalls before).get c = .ok result)
    (few : sweeps between < 2) :
    (afterCalls (before ++ .get c :: between)).Keeps result.1 := by
  induction between using List.reverseRecOn with
  | nil =>
    rw [afterCalls_snoc, PoolCall.run_get_ok ok]
    exact (get_grows ok).2
  | append_singleton between call ih =>
    rw [sweeps_append] at few
    have kept := ih ((Nat.le_add_right _ _).trans_lt few)
    rw [← List.cons_append, ← List.append_assoc, afterCalls_snoc]
    refine (numbered_afterCalls _).keeps_run kept fun isSweep => ?_
    subst isSweep
    have none : sweeps between < 1 := Nat.lt_of_succ_lt_succ few
    rw [get_toControls ok, (asked_and_keys_afterCalls _ c).1]
    exact ⟨before, between, result, rfl, ok, none⟩

/-- After a request its solver is among those of the pool, below the next number. -/
theorem serial_lt_of_get {calls : List (PoolCall α)} {c : Controls α}
    {result : SharedSolver α × SolverPool α} (ok : (afterCalls calls).get c = .ok result) :
    result.1.serial < result.2.nextSerial :=
  ((numbered_afterCalls calls).get ok).serial_lt _ (get_grows ok).2

/-- A request for control points that a pool has gives their solver. -/
theorem eq_of_keeps {calls : List (PoolCall α)} {c : Controls α}
    {result : SharedSolver α × SolverPool α} (ok : (afterCalls calls).get c = .ok result)
    {shared : SharedSolver α} (keeps : (afterCalls calls).Keeps shared)
    (same : shared.solver.toControls = c) : shared = result.1 := by
  obtain ⟨grows, given⟩ := get_grows ok
  exact ((numbered_afterCalls calls).get ok).keyed.unique (grows.kept shared keeps) given
    (same.trans (get_toControls ok).symm)

/-- **Two requests for the same control points**, with none between, give one object if and only if
fewer than two sweeps stand between. -/
theorem serial_eq_iff_sweeps {before between : List (PoolCall α)} {c : Controls α}
    {first later : SharedSolver α × SolverPool α} (ok : (afterCalls before).get c = .ok first)
    (ok' : (afterCalls (before ++ .get c :: between)).get c = .ok later)
    (away : .get c ∉ between) : first.1.serial = later.1.serial ↔ sweeps between < 2 := by
  constructor
  · intro same
    by_contra many
    have dropped : c ∉ (afterCalls (before ++ .get c :: between)).keys := fun present =>
      many ((mem_keys_afterCalls.mp present).of_split away)
    rcases get_cases ok' with ⟨found, -⟩ | ⟨-, solver, -, rfl⟩
    · exact dropped (mem_keys_of_find? found)
    · have below := serial_lt_of_get ok
      have grown := (((numbered_afterCalls before).get ok).fresh_runCalls between).1
      rw [afterCalls_split, PoolCall.run_get_ok ok] at same
      have next : first.1.serial = (SolverPool.runCalls between first.2).nextSerial := same
      omega
  · intro few
    rw [eq_of_keeps ok' (keeps_between ok few) (get_toControls ok)]

/-- Requests for different control points never give one object. -/
theorem serial_ne_of_ne {before between : List (PoolCall α)} {c d : Controls α}
    {first later : SharedSolver α × SolverPool α} (ok : (afterCalls before).get c = .ok first)
    (ok' : (afterCalls (before ++ .get c :: between)).get d = .ok later) (apart : c ≠ d) :
    first.1.serial ≠ later.1.serial := by
  intro same
  have numbered := (numbered_afterCalls before).get ok
  have below := serial_lt_of_get ok
  -- the later solver is in the pool after the later request, which is some calls after the first
  have split : later.2 = SolverPool.runCalls (between ++ [.get d]) first.2 := by
    rw [runCalls_append, ← PoolCall.run_get_ok ok', ← PoolCall.run_get_ok ok, ← afterCalls_split]
    rfl
  have keeps := (get_grows ok').2
  rw [split] at keeps
  rcases (numbered.fresh_runCalls _).2 _ keeps with kept | late
  · have one := numbered.unique _ _ (get_grows ok).2 kept same
    exact apart ((get_toControls ok).symm.trans ((congrArg (·.solver.toControls) one).trans
      (get_toControls ok')))
  · omega

/-- A pool has as many solvers as control points were given with fewer than two sweeps since. -/
theorem size_afterCalls (calls : List (PoolCall α)) :
    (afterCalls calls).size = {c | Given 2 calls c}.ncard := by
  classical
  have keys : {c | Given 2 calls c} = ((afterCalls calls).keys.toFinset : Set (Controls α)) := by
    ext c
    rw [Set.mem_ofPred_eq, Finset.mem_coe, List.mem_toFinset, mem_keys_afterCalls]
  rw [keys, Set.ncard_coe_finset, List.toFinset_card_of_nodup (numbered_afterCalls calls).keyed]
  unfold size SolverPool.keys
  rw [List.length_map]

/-- **How a pool shares its solvers.** For any calls of a new pool: two requests for the same
control points that succeed, with no request for them between, give one object if and only if fewer
than two sweeps stand between them. Requests for control points that differ in any bit never give
one object. A request that fails changes nothing. The number of solvers is the number of different
control points that were given since the sweep before the last one. -/
theorem sharing_law :
    (∀ (before between : List (PoolCall α)) (c : Controls α)
      (first later : SharedSolver α × SolverPool α),
      (afterCalls before).get c = .ok first →
      (afterCalls (before ++ .get c :: between)).get c = .ok later →
      (∀ d, .get d ∈ between → c.same d = false) →
        (first.1.serial = later.1.serial ↔ sweeps between < 2)) ∧
    (∀ (before between : List (PoolCall α)) (c d : Controls α)
      (first later : SharedSolver α × SolverPool α),
      (afterCalls before).get c = .ok first →
      (afterCalls (before ++ .get c :: between)).get d = .ok later →
      c.same d = false → first.1.serial ≠ later.1.serial) ∧
    (∀ (before after : List (PoolCall α)) (c : Controls α) (error : CurveError α),
      (afterCalls before).get c = .error error →
        afterCalls (before ++ .get c :: after) = afterCalls (before ++ after)) ∧
    ∀ calls : List (PoolCall α), (afterCalls calls).size = {c | Given 2 calls c}.ncard := by
  have differs : ∀ {c d : Controls α}, c.same d = false → c ≠ d := by
    rintro c _ apart rfl
    rw [Controls.same_self] at apart
    cases apart
  refine ⟨fun before between c first later ok ok' away => ?_,
    fun before between c d first later ok ok' apart => serial_ne_of_ne ok ok' (differs apart),
    fun before after c error failed => ?_, size_afterCalls⟩
  · exact serial_eq_iff_sweeps ok ok' fun member => differs (away c member) rfl
  · rw [afterCalls_split, PoolCall.run_get_error failed]
    exact (runCalls_append before after empty).symm

end Lawful

/-- Control points in the unit interval are always given a solver. -/
theorem exists_get_ok (pool : SolverPool α) {c : Controls α} (x1 : InUnit c.x1)
    (x2 : InUnit c.x2) : ∃ result, pool.get c = .ok result := by
  unfold get
  cases pool.find? c with
  | some shared => exact ⟨_, rfl⟩
  | none =>
    obtain ⟨solver, built⟩ := UnitCubic.ofControls_isOk x1 x2
    rw [built]
    exact ⟨_, rfl⟩

/-- A solver is given again after one sweep and a request that fails, another one for minus zero in
the place of zero, and another one after two sweeps. -/
theorem sharing_signed_zero :
    let c : Controls Float := ⟨0.25, 0, 0.75, 1⟩
    let d : Controls Float := ⟨0.25, -0, 0.75, 1⟩
    let outside : Controls Float := ⟨2, 0, 0.75, 1⟩
    ∃ (first again negative dropped : SharedSolver Float × SolverPool Float)
      (error : CurveError Float),
      (afterCalls []).get c = .ok first ∧
      (afterCalls [.get c, .sweep, .get outside]).get c = .ok again ∧
      (afterCalls [.get c, .sweep]).get outside = .error error ∧
      (afterCalls [.get c, .get outside]).get d = .ok negative ∧ c.same d = false ∧
      (afterCalls [.get c, .sweep, .get d, .sweep]).get c = .ok dropped ∧
      first.1.serial = again.1.serial ∧ first.1.serial ≠ negative.1.serial ∧
      first.1.serial ≠ dropped.1.serial ∧
      afterCalls [.get c, .sweep, .get outside] = afterCalls [.get c, .sweep] := by
  intro c d outside
  have inside : InUnit c.x1 ∧ InUnit c.x2 := by decide +kernel
  have inside' : InUnit d.x1 ∧ InUnit d.x2 := by decide +kernel
  have beyond : ¬InUnit outside.x1 := by decide +kernel
  have apart : c.same d = false := by decide +kernel
  have apart' : c.same outside = false := by decide +kernel
  obtain ⟨first, ok⟩ := exists_get_ok (afterCalls []) inside.1 inside.2
  obtain ⟨again, ok'⟩ :=
    exists_get_ok (afterCalls [.get c, .sweep, .get outside]) inside.1 inside.2
  obtain ⟨negative, ok''⟩ := exists_get_ok (afterCalls [.get c, .get outside]) inside'.1 inside'.2
  obtain ⟨dropped, ok'''⟩ :=
    exists_get_ok (afterCalls [.get c, .sweep, .get d, .sweep]) inside.1 inside.2
  obtain ⟨error, failed⟩ :
      ∃ error, (afterCalls [.get c, .sweep]).get outside = .error error := by
    cases got : (afterCalls [.get c, .sweep]).get outside with
    | error error => exact ⟨error, rfl⟩
    | ok result =>
      have controls := get_toControls got
      exact absurd (controls ▸ result.1.solver.x1_inUnit) beyond
  obtain ⟨same, different, unchanged, -⟩ := sharing_law (α := Float)
  refine ⟨first, again, negative, dropped, error, ok, ok', failed, ok'', apart, ok''', ?_, ?_, ?_,
    unchanged [.get c, .sweep] [] outside error failed⟩
  · refine (same [] [.sweep, .get outside] c first again ok ok' fun e member => ?_).mpr (by decide)
    obtain rfl : e = outside := by simpa using member
    exact apart'
  · exact different [] [.get outside] c d first negative ok ok'' apart
  · refine mt (same [] [.sweep, .get d, .sweep] c first dropped ok ok''' fun e member => ?_).mp
      (by decide)
    obtain rfl : e = d := by simpa using member
    exact apart

end SolverPool

end Easing
