/-
**Unit cubics shared between compiles.**

Compiling a path again, or a path of which only some joints changed, uses the solvers of the
joints that stayed. A pool hands out one solver for one quadruple of control points, and a sweep
drops the solvers that were not asked for since the sweep before.

Two solvers are one object exactly when their serial numbers are equal; a pool never gives a
number twice.
-/
import Easing.UnitCubic

namespace Easing

/-- A solver together with the number that tells it from every other solver of its pool. -/
structure SharedSolver (α : Type) [Scalar α] where
  solver : UnitCubic α
  serial : Nat

/-- A solver in a pool. -/
structure PoolEntry (α : Type) [Scalar α] extends SharedSolver α where
  /-- Asked for since the last sweep. -/
  requested : Bool

/-- The solvers kept for the next compile. -/
structure SolverPool (α : Type) [Scalar α] where
  entries : List (PoolEntry α)
  /-- The serial number of the next new solver. -/
  nextSerial : Nat

namespace SolverPool

variable {α : Type} [Scalar α]

/-- The pool without solvers. -/
def empty : SolverPool α := ⟨[], 0⟩

/-- The number of solvers kept. -/
def size (pool : SolverPool α) : Nat := pool.entries.length

/-- The kept solver with these control points. -/
def find? (pool : SolverPool α) (c : Controls α) : Option (SharedSolver α) :=
  (pool.entries.find? fun entry => entry.solver.same c).map (·.toSharedSolver)

/-- Marks the solver with these control points as asked for. -/
def markRequested (pool : SolverPool α) (c : Controls α) : SolverPool α :=
  { pool with
    entries := pool.entries.map fun entry =>
      if entry.solver.same c then { entry with requested := true } else entry }

/-- Adds a solver under a new serial number, asked for just now. -/
def add (pool : SolverPool α) (solver : UnitCubic α) : SharedSolver α × SolverPool α :=
  let shared := ⟨solver, pool.nextSerial⟩
  (shared, ⟨pool.entries ++ [{ shared with requested := true }], pool.nextSerial + 1⟩)

/-- The solver with these control points, kept or new. A pool that cannot build one is left as it
was. -/
def get (pool : SolverPool α) (c : Controls α) :
    Except (CurveError α) (SharedSolver α × SolverPool α) :=
  match pool.find? c with
  | some shared => .ok (shared, pool.markRequested c)
  | none => (UnitCubic.ofControls c).map pool.add

/-- Drops the solvers that were not asked for since the last sweep. -/
def sweep (pool : SolverPool α) : SolverPool α :=
  { pool with
    entries := (pool.entries.filter (·.requested)).map fun entry =>
      { entry with requested := false } }

end SolverPool

end Easing
