/-
**Compiled functions, ready to be called and to be read.**

A compile gives either the exact curve or its samples, together with the source text of what it
gives. `compile` also returns the pool with the solvers of this curve, and so does `compileExact`,
which gives the exact curve with its source in both dialects.
-/
import Easing.Curve.Build
import Easing.Script.Pieces
import Easing.Script.Lookup

namespace Easing

/-- What a compile is asked for. -/
structure CompileOptions where
  /-- Samples take the place of the exact curve. -/
  useSampling : Bool
  /-- The source with annotations is wanted too. -/
  emitTypedSource : Bool
  /-- The samples per joint. -/
  precision : Nat
deriving DecidableEq

/-- The exact curve, with annotations, a hundred samples per joint if any. -/
def CompileOptions.default : CompileOptions where
  useSampling := false
  emitTypedSource := true
  precision := 100

/-- A function that can be called. -/
inductive CurveFunction (α : Type) [Scalar α] where
  | exact (curve : Curve α)
  | sampled (curve : SampledCurve α)

/-- The result of a compile. -/
structure Compiled (α : Type) [Scalar α] where
  function : CurveFunction α
  typedSource : Option String
  untypedSource : String
  /-- The samples per joint that were asked for, at least two. -/
  precision : Nat
  /-- A later compile failed, so that this function is not that of the path. -/
  stale : Bool

variable {α : Type} [Scalar α]

namespace CurveFunction

/-- The value at `t`. -/
def eval (function : CurveFunction α) (t : α) : α :=
  match function with
  | .exact curve => curve.eval t
  | .sampled curve => curve.lookup t

/-- The function is given by samples. -/
def isSampled : CurveFunction α → Bool
  | .exact _ => false
  | .sampled _ => true

/-- The source of the function. -/
def source [Numeral α] (function : CurveFunction α) (dialect : Script.Dialect) : String :=
  match function with
  | .exact curve => curve.source dialect
  | .sampled curve => curve.source dialect

end CurveFunction

/-- The value of the compiled function at `t`. -/
def Compiled.eval (compiled : Compiled α) (t : α) : α := compiled.function.eval t

/-- The function that the options ask for. A curve with a sample that is not finite is refused. -/
def chooseFunction (options : CompileOptions) (curve : Curve α) :
    Except (CurveError α) (CurveFunction α) :=
  if options.useSampling then
    let sampled := SampledCurve.sample curve.eval curve.ranges options.precision
    match sampled.infiniteAt? with
    | some t => .error (.invalidCurve t .infiniteSample)
    | none => .ok (.sampled sampled)
  else .ok (.exact curve)

variable [Numeral α]

/-- The result with the sources that the options ask for. -/
def CurveFunction.render (function : CurveFunction α) (options : CompileOptions) : Compiled α where
  function := function
  typedSource := if options.emitTypedSource then some (function.source .typed) else none
  untypedSource := function.source .untyped
  precision := max options.precision 2
  stale := false

/-- Compiles a path with the solvers of a pool. -/
def compile (pool : SolverPool α) (path : Path α) (options : CompileOptions) :
    Except (CurveError α) (Compiled α) × SolverPool α :=
  let (curve, pool) := buildCurve pool path
  ((curve.bind (chooseFunction options)).map (·.render options), pool)

/-- An exact curve with its source in both dialects. -/
structure ExactCompiled (α : Type) [Scalar α] where
  curve : Curve α
  typedSource : String
  untypedSource : String

/-- The curve with both its sources. -/
def Curve.withSources (curve : Curve α) : ExactCompiled α where
  curve := curve
  typedSource := curve.source .typed
  untypedSource := curve.source .untyped

/-- Compiles a path with the solvers of a pool, without options: the exact curve. -/
def compileExact (pool : SolverPool α) (path : Path α) :
    Except (CurveError α) (ExactCompiled α) × SolverPool α :=
  let (curve, pool) := buildCurve pool path
  (curve.map Curve.withSources, pool)

/-- Compiles a path with an empty pool. -/
def compilePath (path : Path α) (options : CompileOptions) :
    Except (CurveError α) (Compiled α) :=
  (compile SolverPool.empty path options).1

end Easing
