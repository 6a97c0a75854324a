/-
**What a settled session shows is what its path compiles to.**

A session compiles only when the snapshot of its path is not the one of the last attempt. Snapshots
tell paths apart, new options forget the attempt, and what is compiled does not depend on the
solvers at hand, so after every call that settles, the function is that of the path, or the path
does not compile and the function is the last one that did, marked as stale.

* `Trace`: a run with the result of the last compile that succeeded.
* `Session.Tracked`: the invariant, which names the path of the last attempt.
* `Session.settle_tracked`: settling keeps it, whether it compiles or not.
* `Trace.coherent_after_run`: what a run leaves behind.
-/
import Easing.Proofs.Curve.Sharing
import Easing.Proofs.Path.Snapshot
import Easing.Proofs.Session.Run

set_option linter.unusedSectionVars false

namespace Easing

open Session

variable {α : Type} [Scalar α] [Numeral α]

/-! ### Runs and what they compile -/

/-- How a session is opened. -/
inductive Opening (α : Type) [Scalar α] where
  | onPath (path : Path α) (ids : IdSupply) (settings : Settings α)
  | onDiagonal (ids : IdSupply) (settings : Settings α)

namespace Opening

def path : Opening α → Path α
  | .onPath path _ _ => path
  | .onDiagonal ids settings => (Path.diagonal ids settings.domain).1

def settings : Opening α → Settings α
  | .onPath _ _ settings => settings
  | .onDiagonal _ settings => settings

def session : Opening α → Session α
  | .onPath path ids settings => ofPath path ids settings
  | .onDiagonal ids settings => ofSettings ids settings

end Opening

/-- A call settles the session. -/
def Call.settles (call : Call α) (session : Session α) : Bool :=
  match call.edited session with
  | .ok (_, settles) => settles
  | .error _ => false

/-- The result of the compile of a settling session, when it compiles. -/
def Session.attempt? (session : Session α) : Option (Except (CurveError α) (Compiled α)) :=
  if session.isSettled then none
  else some (compile session.pool session.path session.settings.compile).1

/-- The result of the compile in a call, when it compiles. -/
def Call.attempt? (call : Call α) (session : Session α) :
    Option (Except (CurveError α) (Compiled α)) :=
  match call.edited session with
  | .ok (edited, true) => edited.attempt?
  | _ => none

/-- The last result of a compile that succeeded, after one more attempt. -/
def lastSuccess (last : Option (Compiled α)) :
    Option (Except (CurveError α) (Compiled α)) → Option (Compiled α)
  | some (.ok compiled) => some compiled
  | _ => last

/-- A run so far. -/
structure Trace (α : Type) [Scalar α] where
  session : Session α
  /-- The result of the last compile that succeeded. -/
  last : Option (Compiled α)
  /-- The last call settled the session. -/
  settled : Bool

namespace Trace

/-- A session is settled when it is opened. -/
def start (opening : Opening α) : Trace α where
  session := opening.session
  last := lastSuccess none (some (compilePath opening.path opening.settings.compile))
  settled := true

/-- One more call. -/
def step (trace : Trace α) (call : Call α) : Except DomainFault (Trace α) :=
  (call.run trace.session).map fun session =>
    { session
      last := lastSuccess trace.last (call.attempt? trace.session)
      settled := call.settles trace.session }

/-- Calls methods one after another. -/
def run (calls : List (Call α)) (trace : Trace α) : Except DomainFault (Trace α) :=
  calls.foldlM step trace

end Trace

/-! ### Coherence -/

namespace Session

/-- A function that is not that of the path any more. -/
def asStale (compiled : Compiled α) : Compiled α := { compiled with stale := true }

/-- What a session shows is what its path compiles to; when the path does not compile, it is the
last result of the run, marked as stale. -/
structure Coherent (last : Option (Compiled α)) (session : Session α) : Prop where
  fresh : session.hasError = false → ∃ result compiled,
    compilePath session.path session.settings.compile = .ok result ∧
      session.compiled = some compiled ∧ compiled.anonymous = result.anonymous
  stale : session.hasError = true →
    (∃ error, compilePath session.path session.settings.compile = .error error) ∧
      session.compiled = last.map asStale

/-- What is shown is the last result of the run, marked when there was an error since. -/
def Shows (last : Option (Compiled α)) (session : Session α) : Prop :=
  session.compiled = if session.hasError then last.map asStale else last

/-- The last attempt was made on a path of which the session remembers the snapshot. -/
structure Tracked (last : Option (Compiled α)) (session : Session α) : Prop where
  shows : Shows last session
  source : ∃ source : Path α, session.compiledFrom = some source.snapshot ∧ source.IsFinite ∧
    source.domain = session.path.domain ∧
    (session.hasError = false → ∃ result compiled,
      compilePath source session.settings.compile = .ok result ∧ last = some compiled ∧
        compiled.anonymous = result.anonymous) ∧
    (session.hasError = true →
      ∃ error, compilePath source session.settings.compile = .error error)

variable {last : Option (Compiled α)} {session edited : Session α}

theorem Keeps.shows (keeps : Keeps session edited) (shows : Shows last session) :
    Shows last edited := by
  unfold Shows
  rwa [keeps.compiled, keeps.hasError]

theorem Keeps.tracked (keeps : Keeps session edited) (tracked : Tracked last session) :
    Tracked last edited where
  shows := keeps.shows tracked.shows
  source := by
    rw [keeps.compiledFrom, keeps.domain, keeps.settings, keeps.hasError]
    exact tracked.source

/-- After settling, the last attempt was on the path as it is. -/
theorem isSettled_settle (session : Session α) : session.settle.isSettled = true := by
  unfold settle
  split
  case isTrue settled => exact settled
  case isFalse =>
    unfold recompile
    split
    split <;> exact beq_self_eq_true _

variable [LawfulSame α] [LawfulNumeral α]

/-- A compile that is shown in place of the last one. -/
theorem recompile_tracked (shows : Shows last session) (finite : session.path.IsFinite) :
    Tracked (lastSuccess last
      (some (compile session.pool session.path session.settings.compile).1)) session.recompile := by
  have independent := compile_anonymous session.pool SolverPool.empty session.path
    session.settings.compile
  change _ = (compilePath session.path session.settings.compile).map Compiled.anonymous
    at independent
  unfold recompile
  generalize compile session.pool session.path session.settings.compile = attempt at independent ⊢
  obtain ⟨outcome, pool⟩ := attempt
  cases outcome with
  | ok compiled =>
    obtain ⟨result, ok, same⟩ : ∃ result,
        compilePath session.path session.settings.compile = .ok result ∧
          compiled.anonymous = result.anonymous := by
      cases fresh : compilePath session.path session.settings.compile with
      | error error =>
        rw [fresh] at independent
        cases independent
      | ok result =>
        rw [fresh] at independent
        exact ⟨result, rfl, Except.ok.inj independent⟩
    exact
      { shows := rfl
        source := ⟨session.path, rfl, finite, rfl, fun _ => ⟨result, compiled, ok, rfl, same⟩,
          fun error => absurd error Bool.false_ne_true⟩ }
  | error error =>
    have failed : ∃ error, compilePath session.path session.settings.compile = .error error := by
      cases fresh : compilePath session.path session.settings.compile with
      | error error => exact ⟨error, rfl⟩
      | ok result =>
        rw [fresh] at independent
        cases independent
    refine ⟨?_, session.path, rfl, finite, rfl, fun none => absurd none.symm Bool.false_ne_true,
      fun _ => failed⟩
    show session.compiled.map asStale = last.map asStale
    unfold Shows at shows
    rw [shows]
    split
    · rw [Option.map_map]
      rfl
    · rfl

/-- **Settling keeps what is remembered**, whether it compiles or not. -/
theorem settle_tracked (shows : Shows last session)
    (tracked : session.isSettled = true → Tracked last session) (finite : session.path.IsFinite) :
    Tracked (lastSuccess last session.attempt?) session.settle := by
  unfold settle attempt?
  split
  case isTrue settled => exact tracked settled
  case isFalse => exact recompile_tracked shows finite

/-- **A settled session is coherent.** -/
theorem Tracked.coherent (tracked : Tracked last session) (settled : session.isSettled = true)
    (finite : session.path.IsFinite) : Coherent last session := by
  obtain ⟨shows, source, from?, finite', domain, success, failure⟩ := tracked
  have snapshot : source.snapshot = session.path.snapshot := by
    have same : session.compiledFrom = some session.path.snapshot := eq_of_beq settled
    rw [from?, Option.some.injEq] at same
    exact same
  have compiles : compilePath source session.settings.compile =
      compilePath session.path session.settings.compile := by
    unfold compilePath
    rw [compile_eq_of_knots (Path.knots_eq_of_snapshot finite' finite snapshot) domain]
  rw [compiles] at success failure
  unfold Shows at shows
  refine ⟨fun noError => ?_, fun error => ?_⟩
  · obtain ⟨result, compiled, ok, isLast, same⟩ := success noError
    rw [noError, isLast] at shows
    exact ⟨result, compiled, ok, shows, same⟩
  · rw [error] at shows
    exact ⟨failure error, shows⟩

end Session

/-! ### Runs -/

namespace Trace

variable [LawfulSame α] [LawfulNumeral α]

/-- What a run keeps. -/
structure Sound (trace : Trace α) : Prop where
  tracked : Tracked trace.last trace.session
  width : 0 ≤ trace.session.path.domain
  settled : trace.settled = true → trace.session.isSettled = true

theorem ofPath_tracked {path : Path α} (finite : path.IsFinite) (ids : IdSupply)
    (settings : Settings α) :
    Tracked (lastSuccess none (some (compilePath path settings.compile)))
      (ofPath path ids settings) := by
  obtain ⟨blank, isBlank, isPath, isSettings, pool, compiled, compiledFrom, hasError⟩ :
      ∃ blank : Session α, ofPath path ids settings = blank.settle ∧ blank.path = path ∧
        blank.settings = settings ∧ blank.pool = SolverPool.empty ∧ blank.compiled = none ∧
        blank.compiledFrom = none ∧ blank.hasError = false :=
    ⟨_, rfl, rfl, rfl, rfl, rfl, rfl, rfl⟩
  have unsettled : blank.isSettled = false := by
    unfold isSettled
    rw [compiledFrom]
    rfl
  have attempt : blank.attempt? = some (compilePath path settings.compile) := by
    unfold attempt?
    rw [unsettled, isPath, isSettings, pool]
    rfl
  have shows : Shows none blank := by
    unfold Shows
    rw [compiled, hasError]
    rfl
  rw [isBlank, ← attempt]
  exact settle_tracked shows (fun settled => absurd (unsettled.symm.trans settled) Bool.false_ne_true)
    (by rwa [isPath])

theorem start_path (opening : Opening α) : (start opening).session.path = opening.path := by
  cases opening with
  | onPath path ids settings => exact ofPath_path path ids settings
  | onDiagonal ids settings => exact ofPath_path _ _ settings

/-- A session that is opened is sound. -/
theorem sound_start (opening : Opening α) (width : 0 ≤ opening.path.domain)
    (finite : opening.path.IsFinite) : Sound (start opening) := by
  refine ⟨?_, by rwa [start_path], fun _ => ?_⟩
  · cases opening with
    | onPath path ids settings => exact ofPath_tracked finite ids settings
    | onDiagonal ids settings => exact ofPath_tracked finite _ settings
  · cases opening with
    | onPath path ids settings => exact isSettled_settle _
    | onDiagonal ids settings => exact isSettled_settle _

/-- A call that settles compiles the edited session. -/
theorem step_of_edited {trace : Trace α} {call : Call α} {edited : Session α}
    (run : call.edited trace.session = .ok (edited, true)) :
    trace.step call =
      .ok ⟨call.shown edited.settle, lastSuccess trace.last edited.attempt?, true⟩ := by
  unfold Trace.step
  rw [call.run_eq, Call.attempt?, Call.settles, run]
  rfl

/-- **One call keeps a run sound.** -/
theorem Sound.step {trace : Trace α} (sound : trace.Sound) (call : Call α)
    (finite : ∀ next, trace.step call = .ok next → next.session.path.IsFinite) :
    ∃ next, trace.step call = .ok next ∧ next.Sound := by
  obtain ⟨edited, settles, run, how⟩ := call.edited_ok sound.width
  cases settles with
  | false =>
    have keeps : Keeps trace.session edited := how.resolve_right fun reset =>
      absurd reset.2 Bool.false_ne_true
    refine ⟨⟨edited, trace.last, false⟩, ?_, keeps.tracked sound.tracked, ?_,
      fun settled => absurd settled Bool.false_ne_true⟩
    · unfold Trace.step
      rw [call.run_eq, Call.attempt?, Call.settles, run]
      rfl
    · show 0 ≤ edited.path.domain
      rw [keeps.domain]
      exact sound.width
  | true =>
    have taken := step_of_edited run
    have bounded : edited.path.IsFinite := by
      have := finite _ taken
      rwa [call.shown_path, settle_path] at this
    have domain : edited.path.domain = trace.session.path.domain := by
      rcases how with keeps | ⟨⟨options, rfl⟩, -⟩
      · exact keeps.domain
      · rfl
    have settled : Tracked (lastSuccess trace.last edited.attempt?) edited.settle := by
      rcases how with keeps | ⟨⟨options, rfl⟩, -⟩
      · exact settle_tracked (keeps.shows sound.tracked.shows)
          (fun _ => keeps.tracked sound.tracked) bounded
      · exact settle_tracked sound.tracked.shows
          (fun settled => absurd settled Bool.false_ne_true) bounded
    refine ⟨_, taken, (call.shown_keeps _).tracked settled, ?_, fun _ => ?_⟩
    · show 0 ≤ (call.shown edited.settle).path.domain
      rw [call.shown_path, settle_path, domain]
      exact sound.width
    · show (call.shown edited.settle).isSettled = true
      unfold isSettled
      rw [(call.shown_keeps edited.settle).compiledFrom, call.shown_path]
      exact isSettled_settle edited

theorem Sound.run {trace : Trace α} (sound : trace.Sound) (calls : List (Call α))
    (finite : ∀ n reached, Trace.run (calls.take n) trace = .ok reached →
      reached.session.path.IsFinite) :
    ∃ reached, Trace.run calls trace = .ok reached ∧ reached.Sound := by
  induction calls generalizing trace with
  | nil => exact ⟨trace, rfl, sound⟩
  | cons call calls ih =>
    have after : ∀ next, trace.step call = .ok next → ∀ rest,
        Trace.run (call :: rest) trace = Trace.run rest next := by
      intro next taken rest
      unfold Trace.run
      rw [List.foldlM_cons, taken]
      rfl
    obtain ⟨next, taken, sound'⟩ := sound.step call fun next taken =>
      finite 1 next (by rw [List.take_succ_cons, List.take_zero, after next taken]; rfl)
    obtain ⟨reached, run, sound''⟩ := ih sound' fun n reached run =>
      finite (n + 1) reached (by rwa [List.take_succ_cons, after next taken])
    exact ⟨reached, by rw [after next taken, run], sound''⟩

/-- **After every call that settles, a session is coherent.** A session that was opened on a path
over a domain that is an interval runs through all calls, and as long as the coordinates are finite
it shows, whenever it was just settled, what its path compiles to. -/
theorem coherent_after_run (opening : Opening Float) (calls : List (Call Float))
    (width : 0 ≤ opening.path.domain)
    (finite : ∀ n reached, Trace.run (calls.take n) (Trace.start opening) = .ok reached →
      reached.session.path.IsFinite) :
    ∃ reached, Trace.run calls (Trace.start opening) = .ok reached ∧
      (reached.settled = true → Coherent reached.last reached.session) := by
  have opened : opening.path.IsFinite := by
    rw [← Trace.start_path]
    exact finite 0 (Trace.start opening) rfl
  obtain ⟨reached, run, sound⟩ := (sound_start opening width opened).run calls finite
  refine ⟨reached, run, fun settled => sound.tracked.coherent (sound.settled settled) ?_⟩
  exact finite calls.length reached (by rwa [List.take_length])

/-- The diagonal with one more anchor above its end. -/
def doubledEnd : Path Float :=
  ⟨[⟨⟨⟨0, 0⟩, ⟨0, 0⟩, ⟨0, 0⟩⟩, ⟨0⟩⟩, ⟨⟨⟨1, 0.5⟩, ⟨0, 0⟩, ⟨0, 0⟩⟩, ⟨2⟩⟩,
    ⟨⟨⟨1, 1⟩, ⟨0, 0⟩, ⟨0, 0⟩⟩, ⟨1⟩⟩], 1⟩

/-- An anchor is inserted above the end of the diagonal. The path does not compile then, and what
was shown before is stale. -/
theorem coherent_after_doubledEnd :
    let opening : Opening Float := .onPath (Path.diagonal ⟨0⟩ 1).1 ⟨2⟩ Settings.default
    let calls : List (Call Float) := [.edit (.insert ⟨1, 0.5⟩ 0)]
    0 ≤ opening.path.domain ∧
      (∀ n reached, Trace.run (calls.take n) (Trace.start opening) = .ok reached →
        reached.session.path.IsFinite) ∧
      ∃ reached, Trace.run calls (Trace.start opening) = .ok reached ∧ reached.settled = true ∧
        reached.session.path = doubledEnd ∧ reached.session.hasError = true ∧
        reached.session.compiled = reached.last.map asStale := by
  intro opening calls
  have finite : opening.path.IsFinite ∧ doubledEnd.IsFinite := by decide +kernel
  have width : 0 ≤ opening.path.domain := by decide +kernel
  have shown : (Trace.start opening).session.path = (Path.diagonal ⟨0⟩ 1).1 := start_path opening
  have names : (Trace.start opening).session.ids = ⟨2⟩ := by
    show opening.session.ids = _
    exact ofPath_ids _ _ _
  obtain ⟨next, taken, doubled, settled⟩ : ∃ next,
      Trace.run calls (Trace.start opening) = .ok next ∧ next.session.path = doubledEnd ∧
        next.settled = true := by
    have clamped : clampToDomain (Trace.start opening).session.path.domain 1 = .ok 1 := by
      rw [shown]
      rfl
    have inserted : (Trace.start opening).session.path.insert (Trace.start opening).session.ids
        ⟨1, 0.5⟩ = .ok (⟨2⟩, doubledEnd, ⟨3⟩) := by
      rw [shown, names]
      rfl
    have step := step_of_edited (show Call.edited (.edit (.insert ⟨1, 0.5⟩ 0)) _ = _ from
      Edit.edited_insert_of_ok 0 clamped inserted)
    refine ⟨_, Eq.trans ?_ step, ?_, rfl⟩
    · rw [Trace.run, List.foldlM_cons, step]
      rfl
    · rw [Call.shown_path, settle_path]
  have stays : ∀ n reached, Trace.run (calls.take n) (Trace.start opening) = .ok reached →
      reached.session.path.IsFinite := by
    intro n reached run
    cases n with
    | zero =>
      obtain rfl : Trace.start opening = reached := Except.ok.inj run
      rw [start_path]
      exact finite.1
    | succ n =>
      rw [List.take_succ_cons, List.take_nil] at run
      obtain rfl := Except.ok.inj (taken.symm.trans run)
      rw [doubled]
      exact finite.2
  obtain ⟨reached, run, coherent⟩ := coherent_after_run opening calls width stays
  obtain rfl := Except.ok.inj (taken.symm.trans run)
  have fails : ∀ options, (compilePath doubledEnd options).toOption.isNone = true := by
    have build : (buildCurve SolverPool.empty doubledEnd).1.toOption.isNone = true := by
      decide +kernel
    intro options
    unfold compilePath compile
    cases built : (buildCurve SolverPool.empty doubledEnd).1 with
    | ok curve =>
      rw [built] at build
      cases build
    | error error => rfl
  have error : next.session.hasError = true := by
    by_contra noError
    obtain ⟨result, -, ok, -⟩ := (coherent settled).fresh (Bool.eq_false_iff.mpr noError)
    rw [doubled] at ok
    have none := fails next.session.settings.compile
    rw [ok] at none
    cases none
  exact ⟨width, stays, next, taken, settled, doubled, error, ((coherent settled).stale error).2⟩

end Trace

end Easing
