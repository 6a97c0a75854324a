/-
**What a compiler keeps between its compiles.**

A compile asks for the control points of its curved joints, from left to right, up to the first
joint that cannot be built. After it the pool has one solver for each of these, and no other, also
when the compile fails. A solver is the same object for as long as every compile asks for it; one
that was dropped never comes back.

* `Path.askedControls`: what a compile asks for, read off the path alone.
* `SolverPool.Grows`: what asking does to a pool; `SolverPool.get_grows`, `buildBranches_grows`.
* `Renews`, `buildCurve_renews`: what a whole compile does to a pool.
* `SolverPool.afterBuilds_law`: what is kept after any compiles, and which branches share a
  solver.
-/
import Easing.Proofs.Curve.Joint
import Easing.Proofs.Curve.Requests

set_option linter.unusedSectionVars false

namespace Easing

variable {α : Type} [Scalar α]

/-! ### What a path asks for -/

/-- The joint is a line: neither of its facing handles has a length. -/
def isStraight (joint : Segment α × Segment α) : Bool :=
  joint.1.handleOut.isZero && joint.2.handleIn.isZero

/-- The control points of a joint. -/
def controlsOf (joint : Segment α × Segment α) : Controls α :=
  jointControls joint.1.toKnot joint.2.toKnot

/-- A joint can be built: it leads to a greater x, and it is a line or has the control points of a
unit cubic. -/
def isBuildable (joint : Segment α × Segment α) : Bool :=
  !isBackward joint.1.point.x joint.2.point.x &&
    (isStraight joint || decide (InUnit (controlsOf joint).x1 ∧ InUnit (controlsOf joint).x2))

/-- The control points of the curved joints before the first one that cannot be built. -/
def askedAlong (joints : List (Segment α × Segment α)) : List (Controls α) :=
  ((joints.takeWhile isBuildable).filter fun joint => !isStraight joint).map controlsOf

/-- What a compile of the path asks for. -/
def Path.askedControls (path : Path α) : List (Controls α) := askedAlong path.normalized.joints

theorem UnitCubic.ofControls_isOk {c : Controls α} (x1 : InUnit c.x1) (x2 : InUnit c.x2) :
    ∃ solver, ofControls c = .ok solver := by
  unfold ofControls
  rw [dif_pos x1, dif_pos x2]
  exact ⟨_, rfl⟩

theorem askedAlong_stop {joint : Segment α × Segment α} (stop : isBuildable joint = false)
    (rest : List (Segment α × Segment α)) : askedAlong (joint :: rest) = [] := by
  unfold askedAlong
  rw [List.takeWhile_cons_of_neg (by rw [stop]; exact Bool.false_ne_true)]
  rfl

theorem askedAlong_cons {joint : Segment α × Segment α} (buildable : isBuildable joint = true)
    (rest : List (Segment α × Segment α)) :
    askedAlong (joint :: rest) =
      (if isStraight joint then [] else [controlsOf joint]) ++ askedAlong rest := by
  unfold askedAlong
  rw [List.takeWhile_cons_of_pos buildable]
  cases straight : isStraight joint with
  | true =>
    rw [List.filter_cons_of_neg (by rw [straight]; exact Bool.false_ne_true)]
    rfl
  | false =>
    rw [List.filter_cons_of_pos (by rw [straight]; rfl)]
    rfl

namespace SolverPool

/-! ### The contents of a pool -/

/-- The solver is kept. -/
def Keeps (pool : SolverPool α) (shared : SharedSolver α) : Prop :=
  ∃ entry ∈ pool.entries, entry.toSharedSolver = shared

/-- A solver with these control points was asked for since the last sweep. -/
def Asked (pool : SolverPool α) (c : Controls α) : Prop :=
  ∃ entry ∈ pool.entries, entry.solver.toControls = c ∧ entry.requested = true

theorem mem_keys_iff {pool : SolverPool α} {c : Controls α} :
    c ∈ pool.keys ↔ ∃ shared, pool.Keeps shared ∧ shared.solver.toControls = c := by
  unfold keys
  rw [List.mem_map]
  constructor
  · rintro ⟨entry, member, same⟩
    exact ⟨entry.toSharedSolver, ⟨entry, member, rfl⟩, same⟩
  · rintro ⟨_, ⟨entry, member, rfl⟩, same⟩
    exact ⟨entry, member, same⟩

/-- There is one solver with given control points. -/
theorem Keyed.unique {pool : SolverPool α} (keyed : pool.Keyed) {shared shared' : SharedSolver α}
    (keeps : pool.Keeps shared) (keeps' : pool.Keeps shared')
    (same : shared.solver.toControls = shared'.solver.toControls) : shared = shared' := by
  obtain ⟨entry, member, rfl⟩ := keeps
  obtain ⟨entry', member', rfl⟩ := keeps'
  rw [List.inj_on_of_nodup_map keyed member member' same]

/-- A sweep keeps what was asked for. -/
theorem Keyed.keeps_sweep {pool : SolverPool α} (keyed : pool.Keyed) {shared : SharedSolver α} :
    pool.sweep.Keeps shared ↔ pool.Keeps shared ∧ pool.Asked shared.solver.toControls := by
  unfold Keeps SolverPool.sweep
  simp only [List.mem_map, List.mem_filter]
  constructor
  · rintro ⟨_, ⟨entry, ⟨member, requested⟩, rfl⟩, rfl⟩
    exact ⟨⟨entry, member, rfl⟩, entry, member, rfl, requested⟩
  · rintro ⟨⟨entry, member, rfl⟩, other, member', same, requested⟩
    obtain rfl := List.inj_on_of_nodup_map keyed member' member same
    exact ⟨_, ⟨other, ⟨member, requested⟩, rfl⟩, rfl⟩

theorem not_asked_sweep (pool : SolverPool α) (c : Controls α) : ¬pool.sweep.Asked c := by
  rintro ⟨_, member, -, requested⟩
  obtain ⟨entry, -, rfl⟩ := List.mem_map.mp member
  cases requested

/-! ### Asking for solvers -/

/-- What asking for some control points does to a pool. -/
structure Grows (pool pool' : SolverPool α) (asked : List (Controls α)) : Prop where
  kept : ∀ shared, pool.Keeps shared → pool'.Keeps shared
  fresh : ∀ shared, pool'.Keeps shared →
    pool.Keeps shared ∨ pool.nextSerial ≤ shared.serial ∧ shared.serial < pool'.nextSerial
  nextSerial_le : pool.nextSerial ≤ pool'.nextSerial
  asked_iff : ∀ c, pool'.Asked c ↔ pool.Asked c ∨ c ∈ asked

theorem Grows.refl (pool : SolverPool α) : pool.Grows pool [] where
  kept _ keeps := keeps
  fresh _ keeps := .inl keeps
  nextSerial_le := Nat.le_refl _
  asked_iff c := by simp

theorem Grows.trans {first second third : SolverPool α} {asked asked' : List (Controls α)}
    (one : first.Grows second asked) (two : second.Grows third asked') :
    first.Grows third (asked ++ asked') where
  kept shared keeps := two.kept shared (one.kept shared keeps)
  fresh shared keeps := by
    rcases two.fresh shared keeps with keeps | ⟨low, high⟩
    · rcases one.fresh shared keeps with keeps | ⟨low, high⟩
      · exact .inl keeps
      · exact .inr ⟨low, high.trans_le two.nextSerial_le⟩
    · exact .inr ⟨one.nextSerial_le.trans low, high⟩
  nextSerial_le := one.nextSerial_le.trans two.nextSerial_le
  asked_iff c := by rw [two.asked_iff, one.asked_iff, List.mem_append, or_assoc]

section Lawful

variable [LawfulSame α] [ReflSame α]

theorem keeps_markRequested {pool : SolverPool α} {c : Controls α} {shared : SharedSolver α} :
    (pool.markRequested c).Keeps shared ↔ pool.Keeps shared := by
  have one : ∀ entry : PoolEntry α, (if entry.solver.same c then { entry with requested := true }
      else entry).toSharedSolver = entry.toSharedSolver := by
    intro entry
    split <;> rfl
  unfold Keeps markRequested
  simp only [List.mem_map]
  constructor
  · rintro ⟨_, ⟨entry, member, rfl⟩, rfl⟩
    exact ⟨entry, member, (one entry).symm⟩
  · rintro ⟨entry, member, rfl⟩
    exact ⟨_, ⟨entry, member, rfl⟩, one entry⟩

theorem asked_markRequested {pool : SolverPool α} {c d : Controls α} (found : c ∈ pool.keys) :
    (pool.markRequested c).Asked d ↔ pool.Asked d ∨ d = c := by
  unfold Asked markRequested
  simp only [List.mem_map]
  constructor
  · rintro ⟨_, ⟨entry, member, rfl⟩, same, requested⟩
    split at same
    next here => exact .inr (same.symm.trans (Controls.eq_of_same here))
    next away =>
      rw [if_neg away] at requested
      exact .inl ⟨entry, member, same, requested⟩
  · rintro (⟨entry, member, same, requested⟩ | rfl)
    · refine ⟨_, ⟨entry, member, rfl⟩, ?_⟩
      split
      · exact ⟨same, rfl⟩
      · exact ⟨same, requested⟩
    · obtain ⟨entry, member, rfl⟩ := List.mem_map.mp found
      refine ⟨_, ⟨entry, member, rfl⟩, ?_⟩
      rw [if_pos (Controls.same_self _)]
      exact ⟨rfl, rfl⟩

/-- A solver that is there is only marked. -/
theorem markRequested_grows {pool : SolverPool α} {c : Controls α} {shared : SharedSolver α}
    (found : pool.find? c = some shared) :
    pool.Grows (pool.markRequested c) [c] ∧ (pool.markRequested c).Keeps shared := by
  obtain ⟨entry, isEntry, rfl⟩ := Option.map_eq_some_iff.mp found
  have member := List.mem_of_find?_eq_some isEntry
  have kept := List.find?_some isEntry
  have same : entry.solver.toControls = c := Controls.eq_of_same kept
  refine ⟨⟨fun _ => keeps_markRequested.mpr, fun _ keeps => .inl (keeps_markRequested.mp keeps),
    Nat.le_refl _, fun d => ?_⟩, keeps_markRequested.mpr ⟨entry, member, rfl⟩⟩
  rw [asked_markRequested (List.mem_map.mpr ⟨entry, member, same⟩), List.mem_singleton]

/-- A new solver has the next number. -/
theorem add_grows (pool : SolverPool α) (solver : UnitCubic α) :
    pool.Grows (pool.add solver).2 [solver.toControls] ∧
      (pool.add solver).2.Keeps (pool.add solver).1 := by
  have last : (⟨⟨solver, pool.nextSerial⟩, true⟩ : PoolEntry α) ∈ (pool.add solver).2.entries :=
    List.mem_append_right _ (List.mem_singleton_self _)
  refine ⟨⟨?_, ?_, Nat.le_succ _, fun d => ?_⟩, _, last, rfl⟩
  · rintro shared ⟨entry, member, rfl⟩
    exact ⟨entry, List.mem_append_left _ member, rfl⟩
  · rintro shared ⟨entry, member, rfl⟩
    rcases List.mem_append.mp member with member | member
    · exact .inl ⟨entry, member, rfl⟩
    · rw [List.mem_singleton.mp member]
      exact .inr ⟨Nat.le_refl _, Nat.lt_succ_self _⟩
  · rw [List.mem_singleton]
    constructor
    · rintro ⟨entry, member, same, requested⟩
      rcases List.mem_append.mp member with member | member
      · exact .inl ⟨entry, member, same, requested⟩
      · rw [List.mem_singleton.mp member] at same
        exact .inr same.symm
    · rintro (⟨entry, member, same, requested⟩ | rfl)
      · exact ⟨entry, List.mem_append_left _ member, same, requested⟩
      · exact ⟨_, last, rfl, rfl⟩

/-- A solver that was asked for is kept, and it is a new one if there was none. -/
theorem get_grows {pool : SolverPool α} {c : Controls α} {result : SharedSolver α × SolverPool α}
    (ok : pool.get c = .ok result) : pool.Grows result.2 [c] ∧ result.2.Keeps result.1 := by
  unfold get at ok
  cases found : pool.find? c with
  | some shared =>
    rw [found] at ok
    obtain rfl := Except.ok.inj ok
    exact markRequested_grows found
  | none =>
    rw [found] at ok
    cases built : UnitCubic.ofControls c with
    | error error =>
      rw [built] at ok
      cases ok
    | ok solver =>
      rw [built] at ok
      obtain rfl := Except.ok.inj ok
      rw [← UnitCubic.toControls_of_ok built]
      exact pool.add_grows solver

end Lawful

end SolverPool

/-! ### Building branches -/

section Building

variable [LawfulSame α] [ReflSame α] {pool : SolverPool α}

/-- What the pool has after the branches of joints were asked for. -/
structure BuildsBranches (pool : SolverPool α) (joints : List (Segment α × Segment α))
    (outcome : Except (CurveError α) (List (Branch α)) × SolverPool α) : Prop where
  grows : pool.Grows outcome.2 (askedAlong joints)
  keeps : ∀ branches, outcome.1 = .ok branches → ∀ branch ∈ branches, ∀ shared,
    branch.solver? = some shared →
      outcome.2.Keeps shared ∧ shared.solver.toControls ∈ askedAlong joints

/-- A joint that fails cannot be built. -/
theorem buildBranch_error {index : Nat} {joint : Segment α × Segment α} {error : CurveError α}
    (failed : buildBranch pool index joint.1.toKnot joint.2.toKnot = .error error) :
    isBuildable joint = false := by
  have nameless := buildBranch_anonymous pool index joint.1.toKnot joint.2.toKnot
  rw [failed] at nameless
  unfold isBuildable isStraight controlsOf
  unfold anonymousBranch at nameless
  split at nameless
  next backward =>
    rw [backward]
    rfl
  next =>
    split at nameless
    · cases nameless
    · rename_i curved
      rw [Bool.not_eq_true] at curved
      rw [curved, Bool.false_or, Bool.and_eq_false_iff]
      refine .inr (decide_eq_false fun inside => ?_)
      obtain ⟨solver, built⟩ := UnitCubic.ofControls_isOk inside.1 inside.2
      rw [built] at nameless
      cases nameless

/-- A joint that is built asks for its control points, if it is curved. -/
theorem buildBranch_grows {index : Nat} {joint : Segment α × Segment α}
    {result : Branch α × SolverPool α}
    (ok : buildBranch pool index joint.1.toKnot joint.2.toKnot = .ok result) :
    isBuildable joint = true ∧
      pool.Grows result.2 (if isStraight joint then [] else [controlsOf joint]) ∧
      ∀ shared, result.1.solver? = some shared →
        result.2.Keeps shared ∧ shared.solver.toControls = controlsOf joint ∧
          isStraight joint = false := by
  unfold buildBranch at ok
  split at ok
  next => cases ok
  next forward =>
    rw [Bool.not_eq_true] at forward
    unfold isBuildable
    rw [forward]
    split at ok
    next straight =>
      have isLine : isStraight joint = true := straight
      cases ok
      rw [isLine]
      exact ⟨rfl, SolverPool.Grows.refl pool, nofun⟩
    next curved =>
      have isCurved : isStraight joint = false := Bool.eq_false_iff.mpr curved
      cases got : pool.get (jointControls joint.1.toKnot joint.2.toKnot) with
      | error error =>
        rw [got] at ok
        cases ok
      | ok solved =>
        rw [got] at ok
        cases ok
        obtain ⟨grows, keeps⟩ := SolverPool.get_grows got
        have controls := SolverPool.get_toControls got
        rw [isCurved]
        refine ⟨?_, grows, fun shared solver => ?_⟩
        · have x1 := solved.1.solver.x1_inUnit
          have x2 := solved.1.solver.x2_inUnit
          rw [controls] at x1 x2
          exact decide_eq_true ⟨x1, x2⟩
        · obtain rfl := Option.some.inj solver
          exact ⟨keeps, controls, rfl⟩

/-- **Building branches asks for what stands before the first failure.** -/
theorem buildBranches_grows (pool : SolverPool α) (index : Nat)
    (joints : List (Segment α × Segment α)) :
    BuildsBranches pool joints (buildBranches pool index joints) := by
  induction joints generalizing pool index with
  | nil =>
    refine ⟨SolverPool.Grows.refl pool, ?_⟩
    rintro _ ⟨⟩ branch member
    cases member
  | cons joint rest ih =>
    unfold buildBranches
    cases built : buildBranch pool index joint.1.toKnot joint.2.toKnot with
    | error error =>
      refine ⟨?_, fun branches ok => ?_⟩
      · rw [askedAlong_stop (buildBranch_error built)]
        exact SolverPool.Grows.refl pool
      · cases ok
    | ok result =>
      obtain ⟨buildable, one, solved⟩ := buildBranch_grows built
      obtain ⟨later, kept⟩ := ih result.2 (index + 1)
      refine ⟨?_, fun branches ok branch member shared solver => ?_⟩
      · rw [askedAlong_cons buildable]
        exact one.trans later
      · rw [askedAlong_cons buildable, List.mem_append]
        obtain ⟨tail, ofTail, rfl⟩ : ∃ tail, (buildBranches result.2 (index + 1) rest).1 = .ok tail ∧
            result.1 :: tail = branches := by
          cases ofTail : (buildBranches result.2 (index + 1) rest).1 with
          | error error => simp [ofTail, Except.map] at ok
          | ok tail => exact ⟨tail, rfl, by simpa [ofTail, Except.map] using ok⟩
        rcases List.mem_cons.mp member with rfl | member
        · obtain ⟨keeps, controls, curved⟩ := solved shared solver
          refine ⟨later.kept shared keeps, .inl ?_⟩
          rw [curved, controls]
          exact List.mem_singleton_self _
        · obtain ⟨keeps, asked⟩ := kept tail ofTail branch member shared solver
          exact ⟨keeps, .inr asked⟩

/-! ### Compiles -/

/-- What a whole compile does to a pool. -/
structure Renews (pool pool' : SolverPool α) (asked : List (Controls α)) : Prop where
  keys_iff : ∀ c, c ∈ pool'.keys ↔ c ∈ asked
  kept : ∀ shared, pool.Keeps shared → shared.solver.toControls ∈ asked → pool'.Keeps shared
  fresh : ∀ shared, pool'.Keeps shared →
    pool.Keeps shared ∨ pool.nextSerial ≤ shared.serial ∧ shared.serial < pool'.nextSerial
  nextSerial_le : pool.nextSerial ≤ pool'.nextSerial

/-- A pool between compiles: nothing is marked as asked for, and every serial number was given. -/
structure SolverPool.Rested (pool : SolverPool α) : Prop where
  keyed : pool.Keyed
  unasked : ∀ c, ¬pool.Asked c
  serial_lt : ∀ shared, pool.Keeps shared → shared.serial < pool.nextSerial

theorem SolverPool.rested_empty : (SolverPool.empty : SolverPool α).Rested :=
  ⟨keyed_empty, by rintro c ⟨_, ⟨⟩, -⟩, by rintro shared ⟨_, ⟨⟩, -⟩⟩

theorem pathBranches_grows (pool : SolverPool α) (path : Path α) :
    BuildsBranches pool path.normalized.joints (pathBranches pool path.normalized) := by
  unfold pathBranches
  split
  next small =>
    have none : path.normalized.joints = [] := by
      have few : path.normalized.segments.length < 2 := small
      unfold Path.joints
      match path.normalized.segments, few with
      | [], _ => rfl
      | [_], _ => rfl
    rw [none]
    exact ⟨SolverPool.Grows.refl pool, nofun⟩
  next => exact buildBranches_grows pool 0 _

theorem keyed_pathBranches (path : Path α) (keyed : pool.Keyed) :
    (pathBranches pool path).2.Keyed := by
  unfold pathBranches
  split
  · exact keyed
  · exact keyed_buildBranches 0 _ keyed

/-- After a compile the pool has what the path asks for, whether the path compiles or not. -/
theorem buildCurve_renews (rested : pool.Rested) (path : Path α) :
    Renews pool (buildCurve pool path).2 path.askedControls := by
  have grows := (pathBranches_grows pool path).grows
  have keyed := keyed_pathBranches path.normalized rested.keyed
  have asked : ∀ c, (pathBranches pool path.normalized).2.Asked c ↔ c ∈ path.askedControls := by
    intro c
    rw [grows.asked_iff, or_iff_right (rested.unasked c)]
    rfl
  have swept : ∀ shared, (buildCurve pool path).2.Keeps shared ↔
      (pathBranches pool path.normalized).2.Keeps shared ∧
        shared.solver.toControls ∈ path.askedControls := by
    intro shared
    rw [← asked]
    exact keyed.keeps_sweep
  refine ⟨fun c => ?_, fun shared keeps asks => ?_, fun shared keeps => ?_, grows.nextSerial_le⟩
  · rw [SolverPool.mem_keys_iff]
    constructor
    · rintro ⟨shared, keeps, rfl⟩
      exact ((swept shared).mp keeps).2
    · intro asks
      obtain ⟨entry, member, rfl, -⟩ := (asked c).mpr asks
      exact ⟨_, (swept entry.toSharedSolver).mpr ⟨⟨entry, member, rfl⟩, asks⟩, rfl⟩
  · exact (swept shared).mpr ⟨grows.kept shared keeps, asks⟩
  · exact grows.fresh shared ((swept shared).mp keeps).1

theorem rested_buildCurve (rested : pool.Rested) (path : Path α) :
    (buildCurve pool path).2.Rested where
  keyed := keyed_buildCurve path rested.keyed
  unasked := SolverPool.not_asked_sweep _
  serial_lt shared keeps := by
    have renews := buildCurve_renews rested path
    rcases renews.fresh shared keeps with keeps | ⟨-, high⟩
    · exact (rested.serial_lt shared keeps).trans_le renews.nextSerial_le
    · exact high

/-- The solvers of its branches are kept after a compile, also when the curve of these branches is
refused. -/
theorem keeps_of_built (rested : pool.Rested) {path : Path α} {branches : List (Branch α)}
    (built : (pathBranches pool path.normalized).1 = .ok branches) {branch : Branch α}
    (member : branch ∈ branches) {shared : SharedSolver α}
    (solver : branch.solver? = some shared) :
    (buildCurve pool path).2.Keeps shared ∧
      shared.solver.toControls ∈ path.askedControls := by
  obtain ⟨grows, kept⟩ := pathBranches_grows pool path
  obtain ⟨keeps, asks⟩ := kept branches built branch member shared solver
  refine ⟨?_, asks⟩
  exact (keyed_pathBranches path.normalized rested.keyed).keeps_sweep.mpr
    ⟨keeps, (grows.asked_iff _).mpr (.inr asks)⟩

/-! ### Histories -/

/-- The pool after compiles of paths, one after another. -/
def SolverPool.afterBuilds (history : List (Path α)) (pool : SolverPool α) : SolverPool α :=
  history.foldl (fun pool path => (buildCurve pool path).2) pool

open SolverPool (afterBuilds)

theorem rested_afterBuilds (history : List (Path α)) (rested : pool.Rested) :
    (afterBuilds history pool).Rested := by
  induction history generalizing pool with
  | nil => exact rested
  | cons path history ih => exact ih (rested_buildCurve rested path)

theorem nextSerial_le_afterBuilds (history : List (Path α)) (rested : pool.Rested) :
    pool.nextSerial ≤ (afterBuilds history pool).nextSerial := by
  induction history generalizing pool with
  | nil => exact Nat.le_refl _
  | cons path history ih =>
    exact (buildCurve_renews rested path).nextSerial_le.trans (ih (rested_buildCurve rested path))

/-- A solver is kept while every compile asks for it. -/
theorem keeps_afterBuilds {history : List (Path α)} (rested : pool.Rested)
    {shared : SharedSolver α} (keeps : pool.Keeps shared)
    (asked : ∀ path ∈ history, shared.solver.toControls ∈ path.askedControls) :
    (afterBuilds history pool).Keeps shared := by
  induction history generalizing pool with
  | nil => exact keeps
  | cons path history ih =>
    exact ih (rested_buildCurve rested path)
      ((buildCurve_renews rested path).kept shared keeps (asked path List.mem_cons_self))
      fun later member => asked later (List.mem_cons_of_mem _ member)

/-- Serial numbers under given control points only grow. -/
theorem serial_le_afterBuilds {history : List (Path α)} (rested : pool.Rested) {c : Controls α}
    {bound : ℕ} (given : bound ≤ pool.nextSerial)
    (above : ∀ shared, pool.Keeps shared → shared.solver.toControls = c → bound ≤ shared.serial) :
    ∀ shared, (afterBuilds history pool).Keeps shared → shared.solver.toControls = c →
      bound ≤ shared.serial := by
  induction history generalizing pool with
  | nil => exact above
  | cons path history ih =>
    have renews := buildCurve_renews rested path
    refine ih (rested_buildCurve rested path) (given.trans renews.nextSerial_le) ?_
    intro shared keeps same
    rcases renews.fresh shared keeps with keeps | ⟨low, -⟩
    · exact above shared keeps same
    · exact given.trans low

/-- **A solver is the same object as long as every compile asks for it**: one that a compile dropped
does not come back. -/
theorem serial_eq_iff {between : List (Path α)} {last : Path α} (rested : pool.Rested)
    {shared shared' : SharedSolver α} (keeps : pool.Keeps shared)
    (keeps' : (afterBuilds (between ++ [last]) pool).Keeps shared')
    (same : shared.solver.toControls = shared'.solver.toControls)
    (asked : shared'.solver.toControls ∈ last.askedControls) :
    shared.serial = shared'.serial ↔
      ∀ path ∈ between, shared.solver.toControls ∈ path.askedControls := by
  constructor
  · intro one path member
    by_contra unasked
    obtain ⟨before, after, rfl⟩ := List.append_of_mem member
    have split : afterBuilds ((before ++ path :: after) ++ [last]) pool =
        afterBuilds (after ++ [last]) (buildCurve (afterBuilds before pool) path).2 := by
      unfold afterBuilds
      rw [List.append_assoc, List.foldl_append]
      rfl
    rw [split] at keeps'
    have restedBefore := rested_afterBuilds before rested
    have renews := buildCurve_renews restedBefore path
    have later := serial_le_afterBuilds (rested_buildCurve restedBefore path)
      renews.nextSerial_le (fun kept keepsKept sameKept => absurd
        ((renews.keys_iff _).mp (SolverPool.mem_keys_iff.mpr ⟨kept, keepsKept, sameKept⟩)) unasked)
      shared' keeps' same.symm
    have early := (rested.serial_lt shared keeps).trans_le
      (nextSerial_le_afterBuilds before rested)
    omega
  · intro all
    have kept : (afterBuilds (between ++ [last]) pool).Keeps shared :=
      keeps_afterBuilds rested keeps fun path member => by
        rcases List.mem_append.mp member with member | member
        · exact all path member
        · rw [List.mem_singleton.mp member, same]
          exact asked
    rw [(rested_afterBuilds _ rested).keyed.unique kept keeps' same]

end Building

/-- **What a compiler keeps, and which branches share a solver.** After any compiles, whether they
succeeded or failed, the pool has exactly one solver for each quadruple of control points that the
last path asked for, before its first joint that cannot be built, and no other solver. Two curved
branches with the same control points have one solver when one compile made them; when two compiles
made them, they have one solver if and only if every compile between the two asked for it. -/
theorem SolverPool.afterBuilds_law [LawfulSame α] [ReflSame α] :
    (∀ (history : List (Path α)) (path : Path α),
      (afterBuilds (history ++ [path]) empty).keys.Nodup ∧
        ∀ c, c ∈ (afterBuilds (history ++ [path]) empty).keys ↔ c ∈ path.askedControls) ∧
    (∀ (history : List (Path α)) (path : Path α) (branches : List (Branch α)),
      (pathBranches (afterBuilds history empty) path.normalized).1 = .ok branches →
      ∀ branch ∈ branches, ∀ branch' ∈ branches, ∀ shared shared',
        branch.solver? = some shared → branch'.solver? = some shared' →
        shared.solver.toControls = shared'.solver.toControls →
          shared.serial = shared'.serial) ∧
    ∀ (history : List (Path α)) (first : Path α) (between : List (Path α))
      (last : Path α) (branches branches' : List (Branch α)),
      (pathBranches (afterBuilds history empty) first.normalized).1 = .ok branches →
      (pathBranches (afterBuilds (history ++ first :: between) empty) last.normalized).1 =
        .ok branches' →
      ∀ branch ∈ branches, ∀ branch' ∈ branches', ∀ shared shared',
        branch.solver? = some shared → branch'.solver? = some shared' →
        shared.solver.toControls = shared'.solver.toControls →
          (shared.serial = shared'.serial ↔
            ∀ path ∈ between, shared.solver.toControls ∈ path.askedControls) := by
  have rested : ∀ history : List (Path α), (afterBuilds history empty).Rested :=
    fun history => rested_afterBuilds history rested_empty
  refine ⟨fun history path => ⟨(rested _).keyed, fun c => ?_⟩, ?_, ?_⟩
  · have last : afterBuilds (history ++ [path]) empty =
        (buildCurve (afterBuilds history empty) path).2 := by
      unfold afterBuilds
      rw [List.foldl_append]
      rfl
    rw [last]
    exact (buildCurve_renews (rested history) path).keys_iff c
  · intro history path branches built branch member branch' member' shared shared' solver solver'
      same
    have keeps := (keeps_of_built (rested history) built member solver).1
    have keeps' := (keeps_of_built (rested history) built member' solver').1
    rw [(rested_buildCurve (rested history) path).keyed.unique keeps keeps' same]
  · intro history first between last branches branches' built built' branch member branch' member'
      shared shared' solver solver' same
    have keeps := (keeps_of_built (rested history) built member solver).1
    obtain ⟨keeps', asked⟩ := keeps_of_built (rested _) built' member' solver'
    have split : (buildCurve (afterBuilds (history ++ first :: between) empty) last).2 =
        afterBuilds (between ++ [last]) (buildCurve (afterBuilds history empty) first).2 := by
      unfold afterBuilds
      rw [List.foldl_append, List.foldl_append]
      rfl
    rw [split] at keeps'
    exact serial_eq_iff (rested_buildCurve (rested history) first) keeps keeps' same asked

/-- Where the handle has a length the joint is curved, whatever the pool. -/
theorem exists_leavingBranch (pool : SolverPool Float) :
    ∃ branch shared, (pathBranches pool (leavingPath ⟨0.5, 0⟩).normalized).1 = .ok [branch] ∧
      branch.solver? = some shared ∧
        shared.solver.toControls = controlsOf (leavingJoint ⟨0.5, 0⟩) := by
  have unit : (leavingPath ⟨0.5, 0⟩).normalized = leavingPath ⟨0.5, 0⟩ := by
    unfold Path.normalized
    exact if_pos (by decide +kernel)
  have nameless := pool.get_anonymous (controlsOf (leavingJoint ⟨0.5, 0⟩))
  obtain ⟨solver, built⟩ := UnitCubic.ofControls_isOk
    (show InUnit (controlsOf (leavingJoint ⟨0.5, 0⟩)).x1 by decide +kernel)
    (show InUnit (controlsOf (leavingJoint ⟨0.5, 0⟩)).x2 by decide +kernel)
  cases got : pool.get (controlsOf (leavingJoint ⟨0.5, 0⟩)) with
  | error error =>
    rw [got, built] at nameless
    cases nameless
  | ok result =>
    refine ⟨.cubic ⟨0, 0⟩ ⟨1, 1⟩ result.1, result.1, ?_, rfl, SolverPool.get_toControls got⟩
    rw [unit]
    show (buildBranches pool 0 [leavingJoint ⟨0.5, 0⟩]).1 = _
    have branch : buildBranch pool 0 (leavingJoint ⟨0.5, 0⟩).1.toKnot
        (leavingJoint ⟨0.5, 0⟩).2.toKnot = .ok (.cubic ⟨0, 0⟩ ⟨1, 1⟩ result.1, result.2) := by
      unfold buildBranch
      rw [if_neg (by decide +kernel), if_neg (by decide +kernel)]
      show (pool.get (controlsOf (leavingJoint ⟨0.5, 0⟩))).map _ = _
      rw [got]
      rfl
    unfold buildBranches leavingJoint at *
    simp only
    rw [branch]
    rfl

/-- A curved joint compiled twice, and once more after a straight one in its place. -/
theorem afterBuilds_leaving :
    ∃ (branch branch' branch'' : Branch Float) (shared shared' shared'' : SharedSolver Float),
      (pathBranches SolverPool.empty (leavingPath ⟨0.5, 0⟩).normalized).1 = .ok [branch] ∧
      (pathBranches (SolverPool.afterBuilds [leavingPath ⟨0.5, 0⟩] SolverPool.empty)
        (leavingPath ⟨0.5, 0⟩).normalized).1 = .ok [branch'] ∧
      (pathBranches
        (SolverPool.afterBuilds [leavingPath ⟨0.5, 0⟩, leavingPath ⟨0, 0⟩] SolverPool.empty)
        (leavingPath ⟨0.5, 0⟩).normalized).1 = .ok [branch''] ∧
      branch.solver? = some shared ∧ branch'.solver? = some shared' ∧
      branch''.solver? = some shared'' ∧
      shared.serial = shared'.serial ∧ shared.serial ≠ shared''.serial := by
  have straight : (leavingPath ⟨0, 0⟩).askedControls.isEmpty = true := by decide +kernel
  obtain ⟨branch, shared, built, solver, controls⟩ := exists_leavingBranch SolverPool.empty
  obtain ⟨branch', shared', built', solver', controls'⟩ :=
    exists_leavingBranch (SolverPool.afterBuilds [leavingPath ⟨0.5, 0⟩] SolverPool.empty)
  obtain ⟨branch'', shared'', built'', solver'', controls''⟩ :=
    exists_leavingBranch
    (SolverPool.afterBuilds [leavingPath ⟨0.5, 0⟩, leavingPath ⟨0, 0⟩] SolverPool.empty)
  obtain ⟨-, -, law⟩ := @SolverPool.afterBuilds_law Float _ _ _
  have again := law [] _ [] _ _ _ built built' branch (List.mem_singleton_self _) branch'
    (List.mem_singleton_self _) shared shared' solver solver' (controls.trans controls'.symm)
  have dropped := law [] _ [leavingPath ⟨0, 0⟩] _ _ _ built built'' branch
    (List.mem_singleton_self _) branch'' (List.mem_singleton_self _) shared shared'' solver solver''
    (controls.trans controls''.symm)
  refine ⟨branch, branch', branch'', shared, shared', shared'', built, built', built'', solver,
    solver', solver'', again.mpr nofun, fun same => ?_⟩
  have asked := dropped.mp same _ (List.mem_singleton_self _)
  rw [List.isEmpty_iff.mp straight] at asked
  exact List.not_mem_nil asked

end Easing
