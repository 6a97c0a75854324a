/-
**The dialects of a compiled curve differ in annotations alone.**

* `numberText_plain`: how doubles are written.
* `allTidy_script`, `allTidy_lookup`: the scripts of curves are trees whose texts are twins.
* `withoutAnnotations`: a text from which the annotations were taken out.
* `CurveFunction.source_without_annotations`: the source with annotations becomes the one without.
-/
import Easing.Compiled
import Easing.Proofs.Decimal.Text
import Easing.Proofs.Script.Twins

namespace Easing

namespace Script

/-! ### Doubles -/

theorem AllMarks.append {front back : String} (isFront : AllMarks front) (isBack : AllMarks back) :
    AllMarks (front ++ back) := by
  intro c member
  rw [String.toList_append] at member
  rcases List.mem_append.mp member with inside | inside
  · exact isFront c inside
  · exact isBack c inside

theorem allMarks_of_digits {text : List Char} (digits : Decimal.AllDigits text) :
    AllMarks (String.ofList text) := by
  intro c member
  rw [String.toList_ofList] at member
  exact .inl (digits c member)

theorem allMarks_toString (n : Nat) : AllMarks (toString n) := by
  intro c member
  rw [Decimal.toList_toString] at member
  exact .inl (Decimal.allDigits_toDigits n c member)

theorem allMarks_point : AllMarks "." := by
  rintro c (_ | ⟨_, ⟨⟩⟩)
  exact .inr (.inl rfl)

/-- A decimal that is written out has no exponent. -/
theorem allMarks_positionalText (decimal : Decimal.Scaled) :
    AllMarks (Decimal.plainLayout.positionalText decimal) := by
  have digits := Decimal.allDigits_toDigits decimal.digits
  unfold Decimal.Layout.positionalText
  dsimp only
  rw [Decimal.toList_toString]
  split_ifs with right fraction inside
  · cases fraction
  · have zeros := allMarks_of_digits (Decimal.allDigits_zeros decimal.place.toNat)
    exact ((allMarks_toString _).append zeros).append nofun
  · refine ((allMarks_of_digits ?_).append ?_).append (allMarks_of_digits ?_)
    · exact fun c member => digits c (List.mem_of_mem_take member)
    · exact allMarks_point
    · exact fun c member => digits c (List.mem_of_mem_drop member)
  · have start : AllMarks "0." := (allMarks_toString 0).append allMarks_point
    exact (start.append (allMarks_of_digits (Decimal.allDigits_zeros _))).append
      (allMarks_toString _)

theorem allMarks_sign (negative : Bool) : AllMarks (Decimal.Layout.sign negative) := by
  cases negative with
  | false => exact nofun
  | true =>
    rintro c (_ | ⟨_, ⟨⟩⟩)
    exact .inr (.inr rfl)

/-- **Doubles are formatted as numbers**, infinities and NaN as words. -/
theorem numberText_plain (a : Float) : NumberText (Numeral.plain a) := by
  show NumberText (Decimal.plainLayout.write a)
  unfold Decimal.Layout.write
  split
  · exact .inl (by decide)
  · exact .inl (by decide)
  · exact .inl (by decide)
  · exact .inr ((allMarks_sign _).append (allMarks_positionalText _))
  · exact .inr ((allMarks_sign _).append (allMarks_positionalText _))

/-! ### Scripts -/

section Scripts

variable {α : Type}

theorem allTidy_append {front back : List (Stmt α)} (isFront : Stmt.allTidy front = true)
    (isBack : Stmt.allTidy back = true) : Stmt.allTidy (front ++ back) = true := by
  induction front with
  | nil => exact isBack
  | cons statement front ih =>
    rw [Stmt.allTidy, Bool.and_eq_true] at isFront
    rw [List.cons_append, Stmt.allTidy, isFront.1, ih isFront.2]
    rfl

theorem allTidy_map {β : Type} {expr : β → Expr α} (tidy : ∀ b, (expr b).tidy false = true)
    (entries : List β) : Expr.allTidy (entries.map expr) = true := by
  induction entries with
  | nil => rfl
  | cons entry rest ih => exact Bool.and_eq_true_iff.mpr ⟨tidy entry, ih⟩

variable [Scalar α]

theorem isBare_solverName (index : Nat) : isBare (solverName index) = true :=
  bare_append rfl (NumberText.isBare (.inr (allMarks_toString index)))

theorem allTidy_solverConstants (index : Nat) (branches : List (Branch α)) :
    Stmt.allTidy (solverConstants index branches) = true := by
  induction branches generalizing index with
  | nil => rfl
  | cons branch rest ih =>
    refine allTidy_append ?_ (ih (index + 1))
    unfold solverConstant
    cases branch.solver? with
    | none => rfl
    | some shared =>
      have tidy : (isBare (solverName index) && true && true) = true := by
        rw [isBare_solverName]
        rfl
      exact tidy

theorem tidy_branchValue (index : Nat) (branch : Branch α) :
    (branchValue index branch).tidy false = true := by
  unfold branchValue
  cases branch.shape with
  | line slope => rfl
  | cubic shared =>
    have tidy : (isBare "map" && (isBare (solverName index) && true && true)) = true := by
      rw [isBare_solverName]
      rfl
    exact tidy

theorem allTidy_branchResults (index : Nat) (branches : List (Branch α)) :
    Stmt.allTidy (branchResults index branches) = true := by
  induction branches generalizing index with
  | nil => rfl
  | cons branch rest ih =>
    have own := tidy_branchValue index branch
    cases rest with
    | nil => exact Bool.and_eq_true_iff.mpr ⟨own, rfl⟩
    | cons next rest =>
      exact Bool.and_eq_true_iff.mpr ⟨Bool.and_eq_true_iff.mpr ⟨rfl, own⟩, ih (index + 1)⟩

/-- The script of a curve is tidy. -/
theorem allTidy_script (curve : Curve α) : Stmt.allTidy curve.script = true := by
  have isSolver : Stmt.allTidy (solver ++ [.blank] : List (Stmt α)) = true := by cbv
  refine allTidy_append ?_ (allTidy_branchResults 0 curve.branches)
  cases curve.hasCubic with
  | true => exact allTidy_append isSolver (allTidy_solverConstants 0 curve.branches)
  | false => rfl

/-- The script of a sampled curve is tidy. -/
theorem allTidy_lookup (curve : SampledCurve α) : Stmt.allTidy curve.script = true := by
  have rest : Stmt.allTidy (outside ++ search ++ inside : List (Stmt α)) = true := by cbv
  unfold SampledCurve.script
  rw [List.append_assoc, List.append_assoc, ← List.append_assoc outside]
  refine allTidy_append ?_ rest
  have ranges : Expr.allTidy (curve.tables.toList.map fun table =>
      (.array [.literal table.start, .literal table.stop] : Expr α)) = true :=
    allTidy_map (fun _ => rfl) _
  have row : ∀ table : SampleTable α,
      (.array (table.samples.toList.map .literal) : Expr α).tidy false = true := fun table =>
    allTidy_map (fun _ => rfl) table.samples.toList
  have samples := allTidy_map row curve.tables.toList
  exact Bool.and_eq_true_iff.mpr ⟨Bool.and_eq_true_iff.mpr ⟨rfl, ranges⟩,
    Bool.and_eq_true_iff.mpr ⟨Bool.and_eq_true_iff.mpr ⟨rfl, samples⟩, rfl⟩⟩

end Scripts

/-! ### Sources -/

/-- The annotations, the longest first. -/
def annotations : List String :=
  [": (x: number) => number", ": [number, number][]", ": number[][]", ": number[]", ": number"]

/-- The text without annotations, which are taken out kind after kind. -/
def withoutAnnotations (text : String) : String :=
  String.ofList
    (annotations.foldl (fun text note => erase note.toList text) text.toList)

theorem notes_eq : annotations.map String.toList = Kind.order.map Kind.note := by decide

namespace Twins

variable {typed untyped : String}

theorem annotated (twins : Twins typed untyped) :
    Annotated Kind.order typed.toList untyped.toList := by
  have annotated := twins.extend .nil
  rwa [List.append_nil, List.append_nil] at annotated

/-- Of twins the one with annotations becomes the other one when they are taken out. -/
theorem withoutAnnotations_eq (twins : Twins typed untyped) :
    withoutAnnotations typed = untyped := by
  have erased := twins.annotated.eraseAll Kind.ordered
  rw [← List.foldl_map (f := Kind.note) (g := fun text note => erase note text), ← notes_eq,
    List.foldl_map] at erased
  unfold withoutAnnotations
  rw [erased, String.ofList_toList]

theorem noteless (twins : Twins typed untyped) :
    ∀ note ∈ annotations, ¬note.toList <:+: untyped.toList := by
  intro note member
  have isNote : note.toList ∈ Kind.order.map Kind.note :=
    notes_eq ▸ List.mem_map_of_mem member
  obtain ⟨kind, -, same⟩ := List.mem_map.mp isNote
  exact same ▸ twins.annotated.noteless kind

/-- Twins that end with a line feed have as many lines. -/
theorem length_splitLines (twins : Twins typed untyped)
    (ends : ∃ front, typed.toList = front ++ ['\n'])
    (ends' : ∃ front, untyped.toList = front ++ ['\n']) :
    (splitLines typed).length = (splitLines untyped).length := by
  obtain ⟨front, same⟩ := ends
  obtain ⟨front', same'⟩ := ends'
  have feeds := twins.annotated.count_feed
  rw [same, same', List.count_append, List.count_append] at feeds
  unfold splitLines
  rw [List.length_map, List.length_map, same, same', length_splitChars, length_splitChars]
  exact congrArg (· + 1) (Nat.add_right_cancel feeds)

end Twins

/-- The function ends with a line feed. -/
theorem exists_wrapLines (dialect : Dialect) (lines : List String) :
    ∃ front, (wrapLines dialect lines).toList = front ++ ['\n'] := by
  refine ⟨(unlines ([header dialect] ++ lines.map bodyLine)).toList ++ ['\x7d'], ?_⟩
  unfold wrapLines unlines
  rw [List.map_append, String.join_append, String.toList_append, List.append_assoc]
  rfl

end Script

namespace CurveFunction

section Source

variable {α : Type} [Scalar α] [Numeral α]

/-- **The sources of a compiled curve in the two dialects are twins.** -/
theorem twins_source (numbers : ∀ a : α, Script.NumberText (Numeral.plain a))
    (function : CurveFunction α) :
    Script.Twins (function.source .typed) (function.source .untyped) := by
  cases function with
  | exact curve =>
    exact Script.twins_wrapLines
      (Script.Stmt.twins_allLines numbers curve.script (Script.allTidy_script curve))
  | sampled curve =>
    exact Script.twins_wrapLines
      (Script.Stmt.twins_allLines numbers curve.script (Script.allTidy_lookup curve))

theorem source_ends (function : CurveFunction α) (dialect : Script.Dialect) :
    ∃ front, (function.source dialect).toList = front ++ ['\n'] := by
  cases function with
  | exact curve => exact Script.exists_wrapLines _ _
  | sampled curve => exact Script.exists_wrapLines _ _

/-- **The dialects differ in annotations alone.** When numbers are written with digits, points and
minus signs, or are words, then taking the annotations out of the source with annotations, the
longest first, gives the source without. This one holds none of them, neither holds a placeholder,
and both have as many lines. -/
theorem source_without_annotations (numbers : ∀ a : α, Script.NumberText (Numeral.plain a))
    (function : CurveFunction α) :
    Script.withoutAnnotations (function.source .typed) = function.source .untyped ∧
    (∀ note ∈ Script.annotations,
      ¬note.toList <:+: (function.source .untyped).toList) ∧
    (∀ dialect, '@' ∉ (function.source dialect).toList) ∧
    (Script.splitLines (function.source .typed)).length =
      (Script.splitLines (function.source .untyped)).length := by
  have twins := function.twins_source numbers
  obtain ⟨noPlace, noPlace'⟩ := twins.annotated.not_mem_place
  refine ⟨twins.withoutAnnotations_eq, twins.noteless, fun dialect => ?_,
    twins.length_splitLines (function.source_ends _) (function.source_ends _)⟩
  cases dialect with
  | typed => exact noPlace
  | untyped => exact noPlace'

end Source

/-- An eased joint and a line that falls. -/
def easedThenFalling : CurveFunction Float :=
  .exact ⟨[
    .cubic ⟨0, 0⟩ ⟨0.5, 0.25⟩
      ⟨⟨⟨0.42, 0, 0.58, 1⟩, by decide +kernel, by decide +kernel⟩, 0⟩,
    .line ⟨0.5, 0.25⟩ ⟨1, -0.75⟩]⟩

/-- All doubles are written as numbers. The sources of this curve differ in annotations alone. -/
theorem source_easedThenFalling :
    (∀ a : Float, Script.NumberText (Numeral.plain a)) ∧
      Script.withoutAnnotations (easedThenFalling.source .typed) =
        easedThenFalling.source .untyped ∧
      ¬": number".toList <:+: (easedThenFalling.source .untyped).toList := by
  obtain ⟨erased, bare, -⟩ :=
    source_without_annotations Script.numberText_plain easedThenFalling
  exact ⟨Script.numberText_plain, erased, bare ": number" (by simp [Script.annotations])⟩

end CurveFunction

end Easing
