/-
**Editing does not depend on the unit of length.**

A session on a path and a session on the same path in another unit, given the same calls with their
positions in their own units, go through the same states up to the unit: the same anchors are
selected since the same times, the same calls return the same, and the functions that are compiled
over the unit domain are equal, with their sources.

Whether a path has changed since it was compiled is told from its snapshot. Over the reals no text
tells all numbers apart, so equal compiles are stated for runs whose paths are told apart by their
snapshots, in both units.

* `Reply`, `Call.play`: a run with what its calls return.
* `TellsApart`, `Call.paths`: the paths that a run goes through, told apart by their snapshots.
* `Session.Tied`: what belongs to compiling is the same; `Session.Tied.settle` compiles in both
  sessions or in neither.
* `Call.play_scaled`: a run in two units.
-/
import Easing.Proofs.Session.Scaling

set_option linter.unusedSectionVars false

namespace Easing

open Session

/-! ### Runs and what they return -/

section Replies

variable {α : Type} [Scalar α] [Numeral α]

/-- What a call returns to the host. -/
inductive Reply (α : Type) where
  | nothing
  /-- The identifier of a new anchor, or why there is none. -/
  | inserted (result : Except (CurveError α) SegmentId)
  /-- How many anchors were removed. -/
  | removed (count : Nat)
  /-- Whether any anchor was selected. -/
  | smoothed (any : Bool)
  /-- Whether the gesture was a click. -/
  | released (click : Bool)
  | hovers (cursor : Cursor)

/-- What an edit returns. -/
def Edit.reply (edit : Edit α) (session : Session α) : Except DomainFault (Reply α) :=
  match edit with
  | .insert point now =>
    (session.insertPoint point now).map fun result => .inserted (result.map (·.1))
  | .delete => .ok (.removed session.deleteSelection.2)
  | .smooth => session.toggleSmoothing.map fun toggled => .smoothed toggled.2
  | .release event => (session.release event).map fun released => .released released.2
  | .press _ => .ok .nothing
  | .drag _ => .ok .nothing

/-- What a call returns. -/
def Call.reply (call : Call α) (session : Session α) : Except DomainFault (Reply α) :=
  match call with
  | .edit change => change.reply session
  | .hover position modifiers => .ok (.hovers (session.hover position modifiers).cursor)
  | _ => .ok .nothing

/-- Calls methods one after another, and collects what they return. -/
def Call.play : List (Call α) → Session α → Except DomainFault (List (Reply α) × Session α)
  | [], session => .ok ([], session)
  | call :: rest, session => do
    let reply ← call.reply session
    let next ← call.run session
    let (replies, last) ← play rest next
    return (reply :: replies, last)

/-- The paths that a run goes through. -/
def Call.paths : List (Call α) → Session α → List (Path α)
  | [], session => [session.path]
  | call :: rest, session =>
    session.path :: match call.run session with
      | .ok next => paths rest next
      | .error _ => []

/-- The snapshots of these paths tell their geometry. -/
def TellsApart (paths : List (Path α)) : Prop :=
  ∀ path ∈ paths, ∀ other ∈ paths, path.snapshot = other.snapshot → path.knots = other.knots

variable {session next last : Session α} {call : Call α} {rest : List (Call α)}

theorem Call.mem_paths (calls : List (Call α)) (session : Session α) :
    session.path ∈ Call.paths calls session := by
  cases calls <;> exact List.mem_cons_self

theorem Call.paths_of_run (run : call.run session = .ok next) :
    Call.paths (call :: rest) session = session.path :: Call.paths rest next := by
  rw [paths, run]

theorem Call.play_of_run {reply : Reply α} {replies : List (Reply α)}
    (replied : call.reply session = .ok reply) (run : call.run session = .ok next)
    (later : Call.play rest next = .ok (replies, last)) :
    Call.play (call :: rest) session = .ok (reply :: replies, last) := by
  rw [play, replied, run]
  show Except.bind (Call.play rest next) _ = _
  rw [later]
  rfl

/-- In a domain that is an interval every call returns. -/
theorem Call.reply_ok (width : 0 ≤ session.path.domain) (call : Call α) :
    ∃ reply, call.reply session = .ok reply := by
  cases call with
  | edit change =>
    cases change with
    | insert point now =>
      simp only [reply, Edit.reply, insertPoint]
      rw [clampToDomain_ok width]
      exact ⟨_, rfl⟩
    | smooth =>
      obtain ⟨toggled, run, -⟩ := toggleSmoothing_ok width
      simp only [reply, Edit.reply]
      rw [run]
      exact ⟨_, rfl⟩
    | release event =>
      simp only [reply, Edit.reply]
      rw [release_eq]
      split
      · obtain ⟨lifted, run, -⟩ := lift_ok width event
        rw [run]
        exact ⟨_, rfl⟩
      · exact ⟨_, rfl⟩
    | _ => exact ⟨_, rfl⟩
  | _ => exact ⟨_, rfl⟩

/-- In a domain that is an interval every call runs. -/
theorem Call.run_ok (width : 0 ≤ session.path.domain) (call : Call α) :
    ∃ next, call.run session = .ok next ∧ next.path.domain = session.path.domain := by
  obtain ⟨edited, settles, run, how⟩ := call.edited_ok width
  have domain : edited.path.domain = session.path.domain := by
    rcases how with keeps | ⟨⟨options, rfl⟩, -⟩
    · exact keeps.domain
    · rfl
  refine ⟨call.finish (edited, settles), by rw [call.run_eq, run]; rfl, ?_⟩
  rw [← domain]
  unfold finish
  split
  · rw [call.shown_path, settle_path]
  · rfl

end Replies

section Units

variable [Numeral ℝ] {factor : ℝ} {session other : Session ℝ}

/-! ### Calls in two units -/

theorem Edit.reply_scaled (scaled : Scaled factor session other) (positive : 0 < factor)
    {reply : Reply ℝ} (edit : Edit ℝ) (replied : edit.reply session = .ok reply) :
    (edit.scaled factor).reply other = .ok reply := by
  cases edit with
  | insert point now =>
    simp only [Edit.reply, Edit.scaled, insertPoint] at replied ⊢
    rw [scaled.path, scaled.ids, ← replied]
    show ((clampToDomain (session.path.domain * factor) (point.x * factor)).map _).map _ = _
    rw [clampToDomain_scale positive]
    cases clampToDomain session.path.domain point.x with
    | error fault => rfl
    | ok x =>
      show Except.ok (Reply.inserted (((((session.path.scaled factor).insert session.ids
        ((⟨x, point.y⟩ : Point ℝ).scale factor))).map _).map _)) = _
      rw [Path.insert_scaled positive]
      show _ = Except.ok (Reply.inserted (((session.path.insert session.ids ⟨x, point.y⟩).map
        _).map _))
      cases session.path.insert session.ids ⟨x, point.y⟩ <;> rfl
  | delete =>
    obtain ⟨-, count⟩ := scaled.foldl_removeAnchor
      (session.selection.anchors.filter fun id => !session.path.isEndpoint id) 0
    simp only [Edit.reply, Edit.scaled, deleteSelection] at replied ⊢
    rw [scaled.doomed, count]
    exact replied
  | smooth =>
    simp only [Edit.reply, Edit.scaled] at replied ⊢
    obtain ⟨toggled, run, rfl⟩ := exists_ok_of_map replied
    obtain ⟨toggled', run', -, same⟩ := scaled.toggleSmoothing positive run
    rw [run', ← same]
    rfl
  | press event => exact replied
  | drag event => exact replied
  | release event =>
    simp only [Edit.reply, Edit.scaled] at replied ⊢
    rw [release_eq] at replied ⊢
    rw [scaled.isDown]
    split at replied
    case isTrue down =>
      obtain ⟨released, run, rfl⟩ := exists_ok_of_map replied
      obtain ⟨lifted, lift, rfl⟩ := exists_ok_of_map run
      obtain ⟨lifted', lift', -⟩ := scaled.lift positive event lift
      have up : Scaled factor { session with isDown := false } { other with isDown := false } :=
        { scaled with isDown := rfl }
      rw [if_pos down, lift']
      exact congrArg (Except.ok <| Reply.released ·) (up.isClick positive event)
    case isFalse up =>
      rw [if_neg up]
      exact replied

/-- A domain that is an interval, with either zero. -/
theorem width_real {path : Path ℝ} (width : 0 ≤ path.domain) :
    @OfNat.ofNat ℝ 0 Scalar.instOfNat ≤ path.domain := by rwa [Scalar.zero_real]

/-- **A call returns the same in every unit.** -/
theorem Call.reply_scaled (scaled : Scaled factor session other) (positive : 0 < factor)
    {reply : Reply ℝ} (call : Call ℝ) (replied : call.reply session = .ok reply) :
    (call.scaled factor).reply other = .ok reply := by
  cases call with
  | edit change => exact change.reply_scaled scaled positive replied
  | hover position modifiers =>
    rw [← replied]
    exact congrArg (Except.ok <| Reply.hovers ·) (scaled.hover positive position modifiers).cursor
  | _ => exact replied

theorem Call.run_scaled (scaled : Scaled factor session other) (positive : 0 < factor)
    {next : Session ℝ} (call : Call ℝ) (run : call.run session = .ok next) :
    ∃ next', (call.scaled factor).run other = .ok next' ∧ Scaled factor next next' := by
  rw [call.run_eq] at run
  obtain ⟨⟨edited, settles⟩, done, rfl⟩ := exists_ok_of_map run
  obtain ⟨edited', done', scaled'⟩ := call.edited_scaled scaled positive done
  rw [Call.run_eq, done']
  exact ⟨_, rfl, call.finish_scaled scaled' positive settles⟩

/-- The paths in the other unit are the paths of the run. -/
theorem Call.paths_scaled (scaled : Scaled factor session other) (positive : 0 < factor)
    (width : 0 ≤ session.path.domain) (calls : List (Call ℝ)) :
    Call.paths (calls.map (Call.scaled factor)) other =
      (Call.paths calls session).map (Path.scaled factor) := by
  induction calls generalizing session other with
  | nil => exact congrArg (fun path => [path]) scaled.path
  | cons call rest ih =>
    obtain ⟨next, run, domain⟩ := call.run_ok (width_real width)
    obtain ⟨next', run', scaled'⟩ := call.run_scaled scaled positive run
    rw [List.map_cons, Call.paths_of_run run', Call.paths_of_run run, List.map_cons, scaled.path,
      ih scaled' (by rwa [domain])]

/-! ### Compiling in two units -/

/-- The unit of a path does not reach its curve. -/
theorem compile_scaled (positive : 0 < factor) (pool : SolverPool ℝ) (path : Path ℝ)
    (options : CompileOptions) :
    compile pool (path.scaled factor) options = compile pool path options := by
  unfold compile buildCurve
  rw [Path.normalized_scaled positive]

namespace Session

/-- What belongs to compiling is the same, and the last compile was of one path in two units, unless
there was none. -/
structure Tied (factor : ℝ) (paths : List (Path ℝ)) (session other : Session ℝ) : Prop where
  pool : other.pool = session.pool
  compiled : other.compiled = session.compiled
  hasError : other.hasError = session.hasError
  compiledFrom : (session.compiledFrom = none ∧ other.compiledFrom = none) ∨
    ∃ path ∈ paths, session.compiledFrom = some path.snapshot ∧
      other.compiledFrom = some (path.scaled factor).snapshot

variable {paths : List (Path ℝ)} {edited edited' : Session ℝ}

theorem Tied.of_keeps (tied : Tied factor paths session other) (keeps : Keeps session edited)
    (keeps' : Keeps other edited') : Tied factor paths edited edited' where
  pool := by rw [keeps'.pool, keeps.pool, tied.pool]
  compiled := by rw [keeps'.compiled, keeps.compiled, tied.compiled]
  hasError := by rw [keeps'.hasError, keeps.hasError, tied.hasError]
  compiledFrom := by rw [keeps'.compiledFrom, keeps.compiledFrom]; exact tied.compiledFrom

/-- Snapshots that tell the paths apart tell in both units whether the path has changed. -/
theorem Tied.isSettled (tied : Tied factor paths session other)
    (scaled : Scaled factor session other) (positive : 0 < factor) (here : session.path ∈ paths)
    (apart : TellsApart paths) (apart' : TellsApart (paths.map (Path.scaled factor))) :
    other.isSettled = session.isSettled := by
  rw [Bool.eq_iff_iff]
  unfold Session.isSettled
  rw [beq_iff_eq, beq_iff_eq, scaled.path]
  rcases tied.compiledFrom with ⟨none, none'⟩ | ⟨path, member, some, some'⟩
  · rw [none, none']
    exact ⟨nofun, nofun⟩
  · rw [some, some', Option.some.injEq, Option.some.injEq]
    unfold Path.snapshot
    constructor
    · intro same
      have knots := apart' _ (List.mem_map_of_mem member) _ (List.mem_map_of_mem here) same
      rw [Path.knots_scaled, Path.knots_scaled] at knots
      rw [(List.map_injective_iff.mpr (Knot.scale_injective positive)) knots]
    · intro same
      rw [Path.knots_scaled, Path.knots_scaled, apart _ member _ here same]

theorem Tied.recompile (tied : Tied factor paths session other)
    (scaled : Scaled factor session other) (positive : 0 < factor) (here : session.path ∈ paths) :
    Tied factor paths session.recompile other.recompile := by
  unfold Session.recompile
  rw [scaled.path, scaled.settings, tied.pool, compile_scaled positive]
  dsimp only [Settings.scaled]
  generalize compile session.pool session.path session.settings.compile = outcome
  obtain ⟨result, pool⟩ := outcome
  have last : ∃ path ∈ paths, some session.path.snapshot = some path.snapshot ∧
      some (session.path.scaled factor).snapshot = some (path.scaled factor).snapshot :=
    ⟨session.path, here, rfl, rfl⟩
  have marked : other.compiled.map asStale = session.compiled.map asStale := by rw [tied.compiled]
  cases result with
  | ok compiled => exact ⟨rfl, rfl, rfl, .inr last⟩
  | error error => exact ⟨rfl, marked, rfl, .inr last⟩

/-- **Settling compiles in both units or in neither**, and to the same. -/
theorem Tied.settle (tied : Tied factor paths session other)
    (scaled : Scaled factor session other) (positive : 0 < factor) (here : session.path ∈ paths)
    (apart : TellsApart paths) (apart' : TellsApart (paths.map (Path.scaled factor))) :
    Tied factor paths session.settle other.settle := by
  unfold Session.settle
  rw [tied.isSettled scaled positive here apart apart']
  split
  · exact tied
  · exact tied.recompile scaled positive here

end Session

/-! ### Runs in two units -/

variable {paths : List (Path ℝ)} {next next' : Session ℝ}

/-- What a call leaves to be settled is tied as before. -/
theorem Call.edited_tied (tied : Tied factor paths session other)
    (scaled : Scaled factor session other) (width : 0 ≤ session.path.domain)
    (width' : 0 ≤ other.path.domain) (call : Call ℝ) {edited edited' : Session ℝ}
    {settles settles' : Bool} (run : call.edited session = .ok (edited, settles))
    (run' : (call.scaled factor).edited other = .ok (edited', settles')) :
    Tied factor paths edited edited' := by
  cases call with
  | edit change =>
    obtain ⟨_, _, done, keeps⟩ := change.edited_ok (width_real width)
    obtain ⟨_, _, done', keeps'⟩ := (change.scaled factor).edited_ok (width_real width')
    obtain ⟨rfl, rfl⟩ := Prod.mk.inj (Except.ok.inj (run.symm.trans done))
    obtain ⟨rfl, rfl⟩ := Prod.mk.inj (Except.ok.inj (run'.symm.trans done'))
    exact tied.of_keeps keeps keeps'
  | setOptions options =>
    simp only [Call.edited, Call.scaled] at run run'
    rw [show other.settings.compile = session.settings.compile by rw [scaled.settings]; rfl] at run'
    split at run
    case isTrue same =>
      rw [if_pos same] at run'
      obtain ⟨rfl, -⟩ := Prod.mk.inj (Except.ok.inj run)
      obtain ⟨rfl, -⟩ := Prod.mk.inj (Except.ok.inj run')
      exact tied
    case isFalse different =>
      rw [if_neg different] at run'
      obtain ⟨rfl, -⟩ := Prod.mk.inj (Except.ok.inj run)
      obtain ⟨rfl, -⟩ := Prod.mk.inj (Except.ok.inj run')
      exact { tied with compiledFrom := .inl ⟨rfl, rfl⟩ }
  | transform event =>
    obtain ⟨moved, done, keeps⟩ := transform_ok (width_real width) event
    obtain ⟨moved', done', keeps'⟩ := transform_ok (width_real width') (event.scaled factor)
    simp only [Call.edited, Call.scaled] at run run'
    rw [done] at run
    rw [done'] at run'
    obtain ⟨rfl, -⟩ := Prod.mk.inj (Except.ok.inj run)
    obtain ⟨rfl, -⟩ := Prod.mk.inj (Except.ok.inj run')
    exact tied.of_keeps keeps keeps'
  | _ =>
    obtain ⟨rfl, -⟩ := Prod.mk.inj (Except.ok.inj run)
    obtain ⟨rfl, -⟩ := Prod.mk.inj (Except.ok.inj run')
    exact { tied with }

/-- **One call in two units**: what belongs to compiling stays tied. -/
theorem Call.run_tied (tied : Tied factor paths session other)
    (scaled : Scaled factor session other) (positive : 0 < factor)
    (width : 0 ≤ session.path.domain) (call : Call ℝ) (run : call.run session = .ok next)
    (run' : (call.scaled factor).run other = .ok next') (here : next.path ∈ paths)
    (apart : TellsApart paths) (apart' : TellsApart (paths.map (Path.scaled factor))) :
    Tied factor paths next next' := by
  have width' : 0 ≤ other.path.domain := by
    rw [scaled.path]
    exact mul_nonneg width positive.le
  rw [Call.run_eq] at run run'
  obtain ⟨⟨edited, settles⟩, done, rfl⟩ := exists_ok_of_map run
  obtain ⟨edited', done', scaled'⟩ := call.edited_scaled scaled positive done
  have tied' := call.edited_tied tied scaled width width' done done'
  rw [done'] at run'
  obtain rfl := Except.ok.inj run'
  unfold Call.finish at here ⊢
  cases settles with
  | false => exact tied'
  | true =>
    rw [if_pos rfl, call.shown_path, settle_path] at here
    rw [if_pos rfl, if_pos rfl]
    exact (tied'.settle scaled' positive here apart apart').of_keeps (call.shown_keeps _)
      (Call.shown_keeps _ _)

/-- **A run in two units** returns the same and stays in step. When the snapshots tell its paths
apart, what is compiled stays the same too. -/
theorem Call.play_step (scaled : Scaled factor session other) (positive : 0 < factor)
    (width : 0 ≤ session.path.domain) (calls : List (Call ℝ)) (paths : List (Path ℝ)) :
    ∃ replies last last', Call.play calls session = .ok (replies, last) ∧
      Call.play (calls.map (Call.scaled factor)) other = .ok (replies, last') ∧
      Scaled factor last last' ∧
      (TellsApart paths → TellsApart (paths.map (Path.scaled factor)) →
        (∀ path ∈ Call.paths calls session, path ∈ paths) →
        Tied factor paths session other → Tied factor paths last last') := by
  induction calls generalizing session other with
  | nil => exact ⟨[], session, other, rfl, rfl, scaled, fun _ _ _ tied => tied⟩
  | cons call rest ih =>
    obtain ⟨reply, replied⟩ := call.reply_ok (width_real width)
    have replied' := call.reply_scaled scaled positive replied
    obtain ⟨next, run, domain⟩ := call.run_ok (width_real width)
    obtain ⟨next', run', scaled'⟩ := call.run_scaled scaled positive run
    obtain ⟨replies, last, last', played, played', ended, compiled⟩ :=
      ih scaled' (by rwa [domain])
    refine ⟨reply :: replies, last, last', Call.play_of_run replied run played,
      Call.play_of_run replied' run' played', ended, fun apart apart' within tied => ?_⟩
    have later : ∀ path ∈ Call.paths rest next, path ∈ paths := by
      intro path member
      refine within path ?_
      rw [Call.paths_of_run run]
      exact List.mem_cons_of_mem _ member
    exact compiled apart apart' later
      (call.run_tied tied scaled positive width run run' (later _ (Call.mem_paths rest next)) apart
        apart')

/-- Sessions opened on a path in two units. -/
theorem Session.scaled_ofPath (path : Path ℝ) (ids : IdSupply) (settings : Settings ℝ) :
    Scaled factor (ofPath path ids settings)
      (ofPath (path.scaled factor) ids (settings.scaled factor)) :=
  Scaled.settle ⟨rfl, rfl, rfl, rfl, rfl, rfl, rfl, rfl⟩

/-- **Editing does not depend on the unit of length.** A session is opened on a path, and another on
the same path and settings with the domain, all anchors and all handles multiplied by a positive
factor. The same calls, with their positions multiplied by the factor in the second session, return
the same in both. In the end the paths differ by the factor alone; the identifiers, the selected
items with their times, the grid and the cursor are equal. When the snapshots tell apart the paths
that each run goes through, the compiled functions with their sources and the error flags are equal
too. -/
theorem Session.play_ofPath_scaled (positive : 0 < factor) (path : Path ℝ) (ids : IdSupply)
    (settings : Settings ℝ) (width : 0 < path.domain) (calls : List (Call ℝ)) :
    let session := ofPath path ids settings
    let other := ofPath (path.scaled factor) ids (settings.scaled factor)
    let calls' := calls.map (Call.scaled factor)
    ∃ replies last last', Call.play calls session = .ok (replies, last) ∧
      Call.play calls' other = .ok (replies, last') ∧ Scaled factor last last' ∧
      (TellsApart (Call.paths calls session) → TellsApart (Call.paths calls' other) →
        last'.compiled = last.compiled ∧ last'.hasError = last.hasError) := by
  intro session other calls'
  -- both sessions before they are settled
  obtain ⟨blank, isBlank, here, blank', isBlank', scaled, tied⟩ :
      ∃ blank : Session ℝ, session = blank.settle ∧ blank.path = path ∧
        ∃ blank' : Session ℝ, other = blank'.settle ∧ Scaled factor blank blank' ∧
          Tied factor (Call.paths calls session) blank blank' :=
    ⟨_, rfl, rfl, _, rfl, ⟨rfl, rfl, rfl, rfl, rfl, rfl, rfl, rfl⟩, ⟨rfl, rfl, rfl, .inl ⟨rfl, rfl⟩⟩⟩
  have opened : Scaled factor session other := Session.scaled_ofPath path ids settings
  have wide : 0 ≤ session.path.domain := by
    rw [ofPath_path]
    exact width.le
  have paths : Call.paths calls' other = (Call.paths calls session).map (Path.scaled factor) :=
    Call.paths_scaled opened positive wide calls
  obtain ⟨replies, last, last', played, played', ended, compiled⟩ :=
    Call.play_step opened positive wide calls (Call.paths calls session)
  refine ⟨replies, last, last', played, played', ended, fun apart apart' => ?_⟩
  rw [paths] at apart'
  have first : blank.path ∈ Call.paths calls session := by
    have member := Call.mem_paths calls session
    rwa [ofPath_path, ← here] at member
  have start := tied.settle scaled positive first apart apart'
  rw [← isBlank, ← isBlank'] at start
  have tied' := compiled apart apart' (fun _ member => member) start
  exact ⟨tied'.compiled, tied'.hasError⟩

end Units

section Doubled

/-- Whole numbers with one decimal place. -/
noncomputable local instance wholeNumeral : Numeral ℝ where
  plain a := toString ⌊a⌋ ++ ".0"
  snapshot a := toString ⌊a⌋ ++ ".0"

/-- The diagonal of a square with sides of six. -/
noncomputable def wideDiagonal : Path ℝ :=
  ⟨[⟨⟨⟨0, 0⟩, ⟨0, 0⟩, ⟨0, 0⟩⟩, ⟨0⟩⟩, ⟨⟨⟨6, 6⟩, ⟨0, 0⟩, ⟨0, 0⟩⟩, ⟨1⟩⟩], 6⟩

/-- The path with one more anchor. -/
noncomputable def wideBend : Path ℝ :=
  ⟨[⟨⟨⟨0, 0⟩, ⟨0, 0⟩, ⟨0, 0⟩⟩, ⟨0⟩⟩, ⟨⟨⟨3, 1⟩, ⟨0, 0⟩, ⟨0, 0⟩⟩, ⟨2⟩⟩,
    ⟨⟨⟨6, 6⟩, ⟨0, 0⟩, ⟨0, 0⟩⟩, ⟨1⟩⟩], 6⟩

theorem insert_wideDiagonal : wideDiagonal.insert ⟨2⟩ ⟨3, 1⟩ = .ok (⟨2⟩, wideBend, ⟨3⟩) := by
  have notLeft : ¬(6 : ℝ) < 3 := by norm_num
  unfold Path.insert wideDiagonal wideBend
  simp [Path.insertionIndex, Path.nearestLeft, IdSupply.fresh, Knot.corner, Vec.zero, notLeft]

theorem snapshot_whole (n : ℕ) : Numeral.snapshot (n : ℝ) = toString n ++ ".0" := by
  show toString ⌊(n : ℝ)⌋ ++ ".0" = _
  rw [Int.floor_natCast]
  rfl

theorem snapshot_wide : wideDiagonal.snapshot ≠ wideBend.snapshot := by
  have zero := snapshot_whole 0
  have one := snapshot_whole 1
  have three := snapshot_whole 3
  have six := snapshot_whole 6
  norm_num at zero one three six
  unfold wideDiagonal wideBend Path.snapshot Path.knots snapshotText
  simp only [List.map_cons, List.map_nil, Knot.snapshot, coordinatesText, zero, one, three, six]
  decide

theorem snapshot_wide_doubled :
    (wideDiagonal.scaled 2).snapshot ≠ (wideBend.scaled 2).snapshot := by
  have zero := snapshot_whole 0
  have two := snapshot_whole 2
  have six := snapshot_whole 6
  have twelve := snapshot_whole 12
  norm_num at zero two six twelve
  have double : (1 : ℝ) * 2 = 2 ∧ (3 : ℝ) * 2 = 6 ∧ (6 : ℝ) * 2 = 12 := by norm_num
  obtain ⟨ofOne, ofThree, ofSix⟩ := double
  unfold Path.snapshot wideDiagonal wideBend snapshotText
  rw [Path.knots_scaled, Path.knots_scaled]
  simp only [Path.knots, List.map_cons, List.map_nil, Knot.scale, Point.scale, Vec.scale, zero_mul,
    ofOne, ofThree, ofSix, Knot.snapshot, coordinatesText, zero, two, six, twelve]
  decide

theorem tellsApart_of_ne {path other : Path ℝ} (differ : path.snapshot ≠ other.snapshot) :
    TellsApart [path, other, other] := by
  intro first member second member' same
  simp only [List.mem_cons, List.not_mem_nil, or_false, or_self] at member member'
  rcases member with rfl | rfl <;> rcases member' with rfl | rfl
  · rfl
  · exact absurd same differ
  · exact absurd same.symm differ
  · rfl

/-- An anchor is inserted, then samples are asked for. -/
noncomputable def wideCalls : List (Call ℝ) :=
  [.edit (.insert ⟨3, 1⟩ 0), .setOptions { CompileOptions.default with useSampling := true }]

theorem paths_wide (settings : Settings ℝ) :
    Call.paths wideCalls (ofPath wideDiagonal ⟨2⟩ settings) =
      [wideDiagonal, wideBend, wideBend] := by
  have inside : clampToDomain wideDiagonal.domain 3 = .ok 3 := by
    show clampToDomain 6 3 = _
    unfold clampToDomain Scalar.clamp
    rw [Scalar.zero_real, if_pos (by norm_num), if_neg (by norm_num), if_neg (by norm_num)]
  have inserted : ∃ next, (Call.edit (.insert ⟨3, 1⟩ 0)).run (ofPath wideDiagonal ⟨2⟩ settings) =
      .ok next ∧ next.path = wideBend := by
    simp only [Call.run, Edit.run, insertPoint]
    rw [ofPath_path, ofPath_ids, inside]
    simp only [Except.map, insert_wideDiagonal]
    exact ⟨_, rfl, settle_path _⟩
  obtain ⟨next, run, isBend⟩ := inserted
  unfold wideCalls
  rw [Call.paths_of_run run, Call.paths_of_run rfl, ofPath_path, isBend, Call.paths, setOptions_path,
    isBend]

/-- A session on a square of six by six and one on a square twice as wide. -/
theorem Session.play_wideCalls_doubled :
    let settings : Settings ℝ := { Settings.default with domain := 6 }
    let session := ofPath wideDiagonal ⟨2⟩ settings
    let other := ofPath (wideDiagonal.scaled 2) ⟨2⟩ (settings.scaled 2)
    let calls' := wideCalls.map (Call.scaled 2)
    (0 : ℝ) < 2 ∧ 0 < wideDiagonal.domain ∧ TellsApart (Call.paths wideCalls session) ∧
      TellsApart (Call.paths calls' other) ∧
      ∃ replies last last', Call.play wideCalls session = .ok (replies, last) ∧
        Call.play calls' other = .ok (replies, last') ∧ Scaled 2 last last' ∧
        last'.compiled = last.compiled ∧ last'.hasError = last.hasError := by
  intro settings session other calls'
  have positive : (0 : ℝ) < 2 := two_pos
  have width : 0 < wideDiagonal.domain := by
    show (0 : ℝ) < 6
    norm_num
  have apart : TellsApart (Call.paths wideCalls session) := by
    rw [paths_wide settings]
    exact tellsApart_of_ne snapshot_wide
  have apart' : TellsApart (Call.paths calls' other) := by
    have wide : 0 ≤ session.path.domain := by
      rw [ofPath_path]
      exact width.le
    rw [Call.paths_scaled (Session.scaled_ofPath wideDiagonal ⟨2⟩ settings) positive wide wideCalls,
      paths_wide settings]
    exact tellsApart_of_ne snapshot_wide_doubled
  obtain ⟨replies, last, last', played, played', ended, compiled⟩ :=
    Session.play_ofPath_scaled positive wideDiagonal ⟨2⟩ settings width wideCalls
  exact ⟨positive, width, apart, apart', replies, last, last', played, played', ended,
    compiled apart apart'⟩

end Doubled

end Easing
