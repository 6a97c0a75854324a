/-
**Edit sessions: a path, what is selected in it, and its compiled function.**

A finished edit settles the session: the path is compiled when its snapshot is not the one of the
last attempt. A path that does not compile leaves the last function in place, marked as stale.

* `Session.ofPath`: a settled session on a path.
* `Session.settle`, `Session.setOptions`: compiling again.
-/
import Easing.Settings
import Easing.Selection
import Easing.Pointer
import Easing.Path.Basic

namespace Easing

/-- The grid that is shown. -/
inductive Grid where
  | coarse
  /-- Shown while points snap. -/
  | fine
deriving DecidableEq

/-- The cursor that is shown. -/
inductive Cursor where
  | crosshair
  | grabbing
  | copy
deriving DecidableEq

/-- The state of an editor. -/
structure Session (α : Type) [Scalar α] where
  path : Path α
  /-- The identifiers for new segments. -/
  ids : IdSupply
  selection : Selection α
  settings : Settings α
  grid : Grid
  cursor : Cursor
  /-- The press that began the last gesture. -/
  press : Option (PointerEvent α)
  /-- A gesture is going on. -/
  isDown : Bool
  /-- The solvers of the last compile. -/
  pool : SolverPool α
  /-- The last function that compiled. -/
  compiled : Option (Compiled α)
  /-- The snapshot of the path that the last compile saw. -/
  compiledFrom : Option String
  /-- The last compile failed. -/
  hasError : Bool

/-- The cells per side of a grid. -/
def Grid.cells {α : Type} (grid : Grid) (settings : Settings α) : Nat :=
  match grid with
  | .coarse => settings.coarseCells
  | .fine => settings.snapCells

namespace Session

variable {α : Type} [Scalar α]

/-- The value of the compiled function at `t`. -/
def eval (session : Session α) (t : α) : Option α :=
  session.compiled.map fun compiled => compiled.eval t

variable [Numeral α]

/-- The last compile was of the path as it is. -/
def isSettled (session : Session α) : Bool :=
  session.compiledFrom == some session.path.snapshot

/-- Compiles the path. A failure keeps the last function and marks it. -/
def recompile (session : Session α) : Session α :=
  let (result, pool) := compile session.pool session.path session.settings.compile
  let session := { session with pool, compiledFrom := some session.path.snapshot }
  match result with
  | .ok compiled => { session with compiled := some compiled, hasError := false }
  | .error _ =>
    { session with
      compiled := session.compiled.map fun previous => { previous with stale := true }
      hasError := true }

/-- Compiles the path if it changed since the last attempt. -/
def settle (session : Session α) : Session α :=
  if session.isSettled then session else session.recompile

/-- A session on a path, with the identifiers that the path left. -/
def ofPath (path : Path α) (ids : IdSupply) (settings : Settings α) : Session α :=
  let session : Session α :=
    { path
      ids
      selection := Selection.empty
      settings
      grid := .coarse
      cursor := .crosshair
      press := none
      isDown := false
      pool := SolverPool.empty
      compiled := none
      compiledFrom := none
      hasError := false }
  session.settle

/-- A session on the diagonal of the domain. -/
def ofSettings (ids : IdSupply) (settings : Settings α) : Session α :=
  let (path, ids) := Path.diagonal ids settings.domain
  ofPath path ids settings

/-- Changes the options of the compile, and compiles again when they differ. -/
def setOptions (session : Session α) (options : CompileOptions) : Session α :=
  if session.settings.compile = options then session
  else
    settle { session with
      settings := { session.settings with compile := options }
      compiledFrom := none }

end Session

end Easing
