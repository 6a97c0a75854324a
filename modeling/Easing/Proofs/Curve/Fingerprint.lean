/-
**A snapshot as the key of a compile.**

A session compiles again when the snapshot of its path is a new one. The snapshot tells all knots
and leaves two things out: the identifiers, at which a compile does not look, and the domain, by
which it scales. So it is a key among the paths over one domain. A path that ends at its domain, as
a path in order does, tells the domain by its last anchor.

* `Path.EndsAtDomain`: the last anchor is at the end of the domain.
* `compilePath_eq_of_snapshot`: when one snapshot means one result.
* `not_compilePath_eq_of_snapshot`: over two domains one snapshot has two results.
-/
import Easing.Proofs.Curve.Sharing
import Easing.Proofs.Path.Snapshot

set_option linter.unusedSectionVars false

namespace Easing

section Keys

variable {α : Type} [Scalar α]

/-- The last anchor is at the end of the domain. -/
def Path.EndsAtDomain (path : Path α) : Prop :=
  ∃ last, path.knots.getLast? = some last ∧ last.point.x = path.domain

variable [Numeral α] [LawfulNumeral α] {path other : Path α}

/-- A path that ends at its domain tells it by its last anchor. -/
theorem Path.domain_eq_of_knots (knots : path.knots = other.knots) (ends : path.EndsAtDomain)
    (ends' : other.EndsAtDomain) : path.domain = other.domain := by
  obtain ⟨last, isLast, atEnd⟩ := ends
  obtain ⟨last', isLast', atEnd'⟩ := ends'
  rw [knots, isLast', Option.some.injEq] at isLast
  rw [← atEnd, ← atEnd', isLast]

/-- **A snapshot is the key of a compile** among the paths over one domain, and among the paths that
end at their own: one snapshot means one result, whether it is a function with its sources or an
error. -/
theorem compilePath_eq_of_snapshot (finite : path.IsFinite) (finite' : other.IsFinite)
    (snapshot : path.snapshot = other.snapshot)
    (domain : path.domain = other.domain ∨ path.EndsAtDomain ∧ other.EndsAtDomain)
    (options : CompileOptions) : compilePath path options = compilePath other options := by
  have knots := Path.knots_eq_of_snapshot finite finite' snapshot
  have same : path.domain = other.domain :=
    domain.elim id fun ends => Path.domain_eq_of_knots knots ends.1 ends.2
  unfold compilePath
  rw [compile_eq_of_knots knots same]

end Keys

/-! ### Doubles -/

/-- A line that rises from `1 / 4` to `1`. -/
def risingLine (first second : Nat) (domain : Float) : Path Float :=
  ⟨[⟨Knot.corner ⟨0, 0.25⟩, ⟨first⟩⟩, ⟨Knot.corner ⟨1, 1⟩, ⟨second⟩⟩], domain⟩

theorem risingLine_isFinite (first second : Nat) (domain : Float) :
    (risingLine first second domain).IsFinite := by
  have knots : ∀ knot ∈ [Knot.corner (⟨0, 0.25⟩ : Point Float), Knot.corner ⟨1, 1⟩],
      knot.IsFinite := by decide +kernel
  exact knots

/-- The snapshot of a line leaves its identifiers and its domain out. -/
theorem snapshot_risingLine (first second first' second' : Nat) (domain domain' : Float) :
    (risingLine first second domain).snapshot = (risingLine first' second' domain').snapshot :=
  congrArg snapshotText rfl

/-- One line under two pairs of identifiers. -/
theorem compilePath_risingLine :
    (risingLine 0 1 1).IsFinite ∧ (risingLine 5 9 1).IsFinite ∧
      (risingLine 0 1 1).snapshot = (risingLine 5 9 1).snapshot ∧
      (risingLine 0 1 1).EndsAtDomain ∧ (risingLine 5 9 1).EndsAtDomain ∧
      compilePath (risingLine 0 1 1) CompileOptions.default =
        compilePath (risingLine 5 9 1) CompileOptions.default := by
  have ends : (risingLine 0 1 1).EndsAtDomain := ⟨_, rfl, rfl⟩
  have ends' : (risingLine 5 9 1).EndsAtDomain := ⟨_, rfl, rfl⟩
  have finite := risingLine_isFinite 0 1 1
  have finite' := risingLine_isFinite 5 9 1
  have snapshot := snapshot_risingLine 0 1 5 9 1 1
  exact ⟨finite, finite', snapshot, ends, ends',
    compilePath_eq_of_snapshot finite finite' snapshot (.inr ⟨ends, ends'⟩) CompileOptions.default⟩

/-- The value at zero of what a line over a domain compiles to. -/
def risingLineAtZero (domain : Float) : Option Float :=
  ((compilePath (risingLine 0 1 domain) CompileOptions.default).toOption.map
    fun compiled => compiled.eval 0)

/-- **A snapshot alone is no key**: one line over two domains has one snapshot, and it compiles to
functions that begin at `1 / 4` and at `1 / 8`. -/
theorem not_compilePath_eq_of_snapshot : ¬∀ path other : Path Float, path.IsFinite →
    other.IsFinite → path.snapshot = other.snapshot → ∀ options,
      compilePath path options = compilePath other options := by
  intro key
  have same := key (risingLine 0 1 1) (risingLine 0 1 2) (risingLine_isFinite 0 1 1)
    (risingLine_isFinite 0 1 2) (snapshot_risingLine 0 1 0 1 1 2) CompileOptions.default
  have atZero : risingLineAtZero 1 = risingLineAtZero 2 := by
    unfold risingLineAtZero
    rw [same]
  have one : (risingLineAtZero 1 == some 0.25) = true := by decide +kernel
  have two : (risingLineAtZero 2 == some 0.25) = false := by decide +kernel
  rw [atZero, two] at one
  cases one

end Easing
