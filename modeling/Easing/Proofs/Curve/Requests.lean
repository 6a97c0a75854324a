/-
**What a compiler keeps is never seen.**

A compiler answers requests one after another and keeps a pool of solvers between them. The pool
depends on the whole history, also on the requests that failed, and no answer depends on the pool.

* `SolverPool.Keyed`: a pool has one solver for one quadruple of control points, and
  `SolverPool.Keyed.find?`: it hands out that one.
* `Request`, `Answer`: what a compiler is asked for, and what it gives.
* `Request.keyed_poolAfter`: no history makes a second solver for the same control points.
* `Request.run_anonymous`: an answer is the same with any two pools, up to the serial numbers of
  its solvers.
* `Request.answer_after_history`: after any history a request is answered as by a new compiler.
-/
import Easing.Decimal.Layout
import Easing.Proofs.Curve.Sharing

set_option linter.unusedSectionVars false

namespace Easing

/-- A scalar type in which every value is the same as itself, a NaN too. -/
class ReflSame (α : Type) [Scalar α] : Prop where
  same_self : ∀ a : α, Scalar.same a a = true

instance : ReflSame Float where
  same_self a := beq_self_eq_true a.toBits

variable {α : Type} [Scalar α]

theorem Controls.same_self [ReflSame α] (c : Controls α) : c.same c = true := by
  unfold Controls.same
  simp only [ReflSame.same_self, Bool.and_self]

/-- A solver has the control points that it was built from. -/
theorem UnitCubic.toControls_of_ok {c : Controls α} {solver : UnitCubic α}
    (built : ofControls c = .ok solver) : solver.toControls = c := by
  unfold ofControls at built
  split at built
  · split at built
    · rw [← Except.ok.inj built]
    · cases built
  · cases built

/-! ### One solver for one quadruple of control points -/

namespace SolverPool

/-- The control points of the solvers in a pool. -/
def keys (pool : SolverPool α) : List (Controls α) := pool.entries.map (·.solver.toControls)

/-- No two solvers have the same control points. -/
def Keyed (pool : SolverPool α) : Prop := pool.keys.Nodup

theorem keyed_empty : Keyed (empty : SolverPool α) := List.nodup_nil

theorem keys_markRequested (pool : SolverPool α) (c : Controls α) :
    (pool.markRequested c).keys = pool.keys := by
  unfold keys markRequested
  rw [List.map_map]
  refine List.map_congr_left fun entry _ => ?_
  rw [Function.comp_apply]
  split <;> rfl

theorem keys_sweep (pool : SolverPool α) :
    pool.sweep.keys = (pool.entries.filter (·.requested)).map (·.solver.toControls) := by
  unfold keys sweep
  rw [List.map_map]
  rfl

theorem keys_add (pool : SolverPool α) (solver : UnitCubic α) :
    (pool.add solver).2.keys = pool.keys ++ [solver.toControls] := List.map_append

/-- A sweep only takes solvers away. -/
theorem Keyed.sweep {pool : SolverPool α} (keyed : pool.Keyed) : pool.sweep.Keyed := by
  unfold Keyed
  rw [keys_sweep]
  exact keyed.sublist (List.filter_sublist.map _)

variable [ReflSame α]

theorem not_mem_keys {pool : SolverPool α} {c : Controls α} (absent : pool.find? c = none) :
    c ∉ pool.keys := by
  intro member
  obtain ⟨entry, inside, rfl⟩ := List.mem_map.mp member
  exact List.find?_eq_none.mp (Option.map_eq_none_iff.mp absent) entry inside
    (Controls.same_self _)

/-- A solver is built only where there is none. -/
theorem Keyed.get {pool : SolverPool α} {c : Controls α} {result : SharedSolver α × SolverPool α}
    (keyed : pool.Keyed) (ok : pool.get c = .ok result) : result.2.Keyed := by
  unfold SolverPool.get at ok
  cases found : pool.find? c with
  | some shared =>
    rw [found] at ok
    rw [← Except.ok.inj ok]
    unfold Keyed
    rwa [keys_markRequested]
  | none =>
    rw [found] at ok
    cases built : UnitCubic.ofControls c with
    | error error =>
      rw [built] at ok
      cases ok
    | ok solver =>
      rw [built] at ok
      rw [← Except.ok.inj ok]
      unfold Keyed
      rw [keys_add, UnitCubic.toControls_of_ok built, ← List.concat_eq_append]
      exact keyed.concat (not_mem_keys found)

/-- **A solver is found under its own control points.** -/
theorem Keyed.find? [LawfulSame α] {pool : SolverPool α} (keyed : pool.Keyed)
    {entry : PoolEntry α} (member : entry ∈ pool.entries) :
    pool.find? entry.solver.toControls = some entry.toSharedSolver := by
  unfold SolverPool.find?
  cases found : pool.entries.find? fun other => other.solver.same entry.solver.toControls with
  | none => exact absurd (Controls.same_self _) (List.find?_eq_none.mp found entry member)
  | some other =>
    have kept := List.find?_some found
    have same : other.solver.toControls = entry.solver.toControls := Controls.eq_of_same kept
    have one : other = entry :=
      List.inj_on_of_nodup_map keyed (List.mem_of_find?_eq_some found) member same
    rw [one]
    rfl

end SolverPool

/-! ### Building keeps the pool a map -/

section Building

variable [ReflSame α] {pool : SolverPool α}

theorem keyed_buildBranch {index : Nat} {left right : Knot α} {result : Branch α × SolverPool α}
    (keyed : pool.Keyed) (ok : buildBranch pool index left right = .ok result) :
    result.2.Keyed := by
  unfold buildBranch at ok
  split at ok
  · cases ok
  · split at ok
    · cases ok
      exact keyed
    · cases got : pool.get (jointControls left right) with
      | error error =>
        rw [got] at ok
        cases ok
      | ok solved =>
        rw [got] at ok
        cases ok
        exact keyed.get got

theorem keyed_buildBranches (index : Nat) (joints : List (Segment α × Segment α))
    (keyed : pool.Keyed) : (buildBranches pool index joints).2.Keyed := by
  induction joints generalizing pool index with
  | nil => exact keyed
  | cons joint rest ih =>
    unfold buildBranches
    cases built : buildBranch pool index joint.1.toKnot joint.2.toKnot with
    | error error => exact keyed
    | ok result => exact ih (index + 1) (keyed_buildBranch keyed built)

theorem keyed_buildCurve (path : Path α) (keyed : pool.Keyed) : (buildCurve pool path).2.Keyed := by
  have built : (pathBranches pool path.normalized).2.Keyed := by
    unfold pathBranches
    split
    · exact keyed
    · exact keyed_buildBranches 0 _ keyed
  exact built.sweep

end Building

/-! ### Requests -/

/-- What a compiler is asked for. -/
inductive Request (α : Type) where
  /-- The curve of a path. -/
  | build (path : Path α)
  /-- The curve of a path with its source in both dialects. -/
  | compileExact (path : Path α)
  /-- The function of a path that the options choose. -/
  | compile (path : Path α) (options : CompileOptions)

/-- What a compiler gives. -/
inductive Answer (α : Type) [Scalar α] where
  | built (curve : Curve α)
  | exact (compiled : ExactCompiled α)
  | chosen (compiled : Compiled α)

def ExactCompiled.anonymous (compiled : ExactCompiled α) : ExactCompiled α :=
  { compiled with curve := compiled.curve.anonymous }

/-- The answer, whichever objects its solvers are. -/
def Answer.anonymous : Answer α → Answer α
  | .built curve => .built curve.anonymous
  | .exact compiled => .exact compiled.anonymous
  | .chosen compiled => .chosen compiled.anonymous

namespace Request

variable [Numeral α]

/-- The answer to a request, or the error, with the pool after it. -/
def run (request : Request α) (pool : SolverPool α) :
    Except (CurveError α) (Answer α) × SolverPool α :=
  match request with
  | .build path => ((buildCurve pool path).1.map .built, (buildCurve pool path).2)
  | .compileExact path =>
    ((Easing.compileExact pool path).1.map .exact, (Easing.compileExact pool path).2)
  | .compile path options =>
    ((Easing.compile pool path options).1.map .chosen, (Easing.compile pool path options).2)

/-- The pool after requests, one after another. -/
def poolAfter (history : List (Request α)) (pool : SolverPool α) : SolverPool α :=
  history.foldl (fun pool request => (request.run pool).2) pool

variable [ReflSame α]

theorem keyed_run (request : Request α) {pool : SolverPool α} (keyed : pool.Keyed) :
    (request.run pool).2.Keyed := by
  cases request with
  | build path => exact keyed_buildCurve path keyed
  | compileExact path => exact keyed_buildCurve path keyed
  | compile path options => exact keyed_buildCurve path keyed

/-- After any history there is one solver for one quadruple of control points. -/
theorem keyed_poolAfter (history : List (Request α)) {pool : SolverPool α} (keyed : pool.Keyed) :
    (poolAfter history pool).Keyed := by
  induction history generalizing pool with
  | nil => exact keyed
  | cons request history ih => exact ih (request.keyed_run keyed)

end Request

/-! ### Answers without serial numbers -/

/-- What is given keeps two outcomes alike that are alike without their serial numbers. -/
theorem map_anonymous {ε β γ : Type} {kept other : Except ε β} {nameless : β → β}
    {nameless' : γ → γ} {give : β → γ} (commutes : ∀ b, nameless' (give b) = give (nameless b))
    (same : kept.map nameless = other.map nameless) :
    (kept.map give).map nameless' = (other.map give).map nameless' := by
  have form : ∀ outcome : Except ε β,
      (outcome.map give).map nameless' = (outcome.map nameless).map give := by
    intro outcome
    cases outcome with
    | error error => rfl
    | ok b => exact congrArg Except.ok (commutes b)
  rw [form, form, same]

section Naming

variable [Numeral α]

theorem Curve.withSources_anonymous (curve : Curve α) :
    curve.withSources.anonymous = curve.anonymous.withSources := by
  have source : ∀ dialect, curve.anonymous.source dialect = curve.source dialect := fun dialect =>
    congrArg (fun script => Script.wrapLines dialect (Script.Stmt.allLines dialect script))
      curve.script_anonymous
  unfold Curve.withSources ExactCompiled.anonymous
  rw [source, source]

/-- **No answer depends on the pool.** -/
theorem Request.run_anonymous [LawfulSame α] (request : Request α) (pool pool' : SolverPool α) :
    (request.run pool).1.map Answer.anonymous = (request.run pool').1.map Answer.anonymous := by
  cases request with
  | build path => exact map_anonymous (fun _ => rfl) (buildCurve_anonymous pool pool' path)
  | compileExact path =>
    have both : (Easing.compileExact pool path).1.map ExactCompiled.anonymous =
        (Easing.compileExact pool' path).1.map ExactCompiled.anonymous :=
      map_anonymous Curve.withSources_anonymous (buildCurve_anonymous pool pool' path)
    exact map_anonymous (fun _ => rfl) both
  | compile path options =>
    exact map_anonymous (fun _ => rfl) (compile_anonymous pool pool' path options)

end Naming

/-- **What a compiler keeps is never seen.** After any requests, whether they succeeded or failed, a
compiler gives the next answer that a new one gives: the same error with the same values in it, or
the same result up to the serial numbers of its solvers. Every solver that it keeps is the one that
would be built from its control points, and the only one with these. -/
theorem Request.answer_after_history [Numeral α] [LawfulSame α] [ReflSame α]
    (history : List (Request α)) (next : Request α) :
    (next.run (poolAfter history SolverPool.empty)).1.map Answer.anonymous =
        (next.run SolverPool.empty).1.map Answer.anonymous ∧
      ∀ entry ∈ (poolAfter history SolverPool.empty).entries,
        UnitCubic.ofControls entry.solver.toControls = .ok entry.solver ∧
          (poolAfter history SolverPool.empty).find? entry.solver.toControls =
            some entry.toSharedSolver := by
  have keyed := keyed_poolAfter history SolverPool.keyed_empty
  refine ⟨next.run_anonymous _ _, fun entry member => ?_⟩
  exact ⟨entry.solver.ofControls_toControls, keyed.find? member⟩

/-- The joint from `(0, 0)` to `(1, 1)` with a handle at its start. -/
def leavingJoint (handle : Vec Float) : Segment Float × Segment Float :=
  (⟨⟨⟨0, 0⟩, ⟨0, 0⟩, handle⟩, ⟨0⟩⟩, ⟨⟨⟨1, 1⟩, ⟨0, 0⟩, ⟨0, 0⟩⟩, ⟨1⟩⟩)

def leavingPath (handle : Vec Float) : Path Float :=
  ⟨[(leavingJoint handle).1, (leavingJoint handle).2], 1⟩

/-- A handle that reaches out of its joint is refused, then a curve is built and kept, and asked for
once more. -/
theorem Request.answer_after_refusal :
    let refused : Request Float := .compileExact (leavingPath ⟨2, 0⟩)
    let history := [refused, .build (leavingPath ⟨0.5, 0⟩)]
    let next : Request Float := .compile (leavingPath ⟨0.5, 0⟩) ⟨true, false, 2⟩
    (refused.run SolverPool.empty).1.toOption.isNone = true ∧
      (poolAfter history SolverPool.empty).entries.length = 1 ∧
      (next.run (poolAfter history SolverPool.empty)).1.map Answer.anonymous =
        (next.run SolverPool.empty).1.map Answer.anonymous := by
  intro refused history next
  have fails : (refused.run SolverPool.empty).1.toOption.isNone = true := by decide +kernel
  have keeps : (poolAfter history SolverPool.empty).entries.length = 1 := by decide +kernel
  exact ⟨fails, keeps, (Request.answer_after_history history next).1⟩

end Easing
