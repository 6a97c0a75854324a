/-
**The library of the program follows the rules.**

A finite double is printed as a JSON number, and any other as `null`. The text of a content is a
text of what is written for it, without blanks. What the readers take of a text is what they take
of its value.

* `NumberForm.exists_snapshot`, `printedForm`: the number that is printed for a finite double.
* `Content.flatten_words`: the text of a content.
* `library_documented`: the rules.
-/
import Easing.Proofs.Decimal.ReadBack
import Easing.Proofs.Json.Record

namespace Easing.Json

open Decimal (Spelling)

/-! ### Printed numbers -/

/-- The exponent that a layout writes. -/
def ExponentForm.ofInt (exponent : ℤ) : ExponentForm where
  mark := 'e'
  sign := [if exponent < 0 then '-' else '+']
  digits := Nat.toDigits 10 exponent.natAbs
  isMark := .inl rfl
  isSign := by
    split
    · exact .inr (.inr rfl)
    · exact .inr (.inl rfl)
  nonempty := Nat.toDigits_ne_nil
  allDigits := Decimal.allDigits_toDigits _

namespace NumberForm

/-- The number that a layout writes. -/
def ofSpelling (negative : Bool) (s : Spelling) : NumberForm where
  negative := negative
  whole := s.whole
  fraction := s.fraction
  exponent := s.exponent.map ExponentForm.ofInt
  nonempty := s.nonempty
  wholeDigits := s.wholeDigits
  plain := s.plain
  fractionDigits := s.fractionDigits

theorem text_ofSpelling (negative : Bool) (s : Spelling) :
    (ofSpelling negative s).text = (Decimal.Layout.sign negative).toList ++ s.text := by
  have mark : (ofSpelling negative s).exponentText = Spelling.markText s.exponent := by
    unfold exponentText ofSpelling
    cases s.exponent <;> rfl
  unfold text digitsText Spelling.text
  rw [mark, List.append_assoc s.whole]
  cases negative <;> rfl

/-- **A finite double is printed as a number.** -/
theorem exists_snapshot {a : Float} (finite : Scalar.isFinite a = true) :
    ∃ form : NumberForm, form.text = (Numeral.snapshot a).toList := by
  obtain ⟨negative, s, isText, -⟩ := Decimal.Layout.write_spells Decimal.snapshotLayout finite
  exact ⟨ofSpelling negative s, (text_ofSpelling negative s).trans isText.symm⟩

end NumberForm

/-- A double that is not finite is printed as `null`. -/
theorem snapshot_eq_null {a : Float} (infinite : Scalar.isFinite a = false) :
    Numeral.snapshot a = "null" := by
  show Decimal.snapshotLayout.write a = "null"
  unfold Decimal.Layout.write
  rcases Decimal.Double.infinite_kinds infinite with kind | ⟨negative, kind⟩
  · rw [kind]
    rfl
  · rw [kind]
    cases negative <;> rfl

/-- The shortest number. -/
instance : Inhabited NumberForm where
  default :=
    { negative := false
      whole := ['0']
      fraction := []
      exponent := none
      nonempty := List.cons_ne_nil _ _
      wholeDigits := by simp [Decimal.AllDigits]
      plain := fun _ same => (List.cons.inj same).2.symm
      fractionDigits := by simp [Decimal.AllDigits] }

open Classical in
/-- The number that is printed for a finite double. -/
noncomputable def printedForm (a : Float) : NumberForm :=
  if finite : Scalar.isFinite a = true then (NumberForm.exists_snapshot finite).choose else default

theorem text_printedForm {a : Float} (finite : Scalar.isFinite a = true) :
    (printedForm a).text = (Numeral.snapshot a).toList := by
  unfold printedForm
  rw [dif_pos finite]
  exact (NumberForm.exists_snapshot finite).choose_spec

/-! ### The text of a content -/

namespace Content

/-- Texts with commas between them. -/
theorem toList_intercalate (text : String) (texts : List String) :
    (String.intercalate "," (text :: texts)).toList =
      text.toList ++ texts.flatMap fun text => ',' :: text.toList := by
  induction texts generalizing text with
  | nil => simp
  | cons next rest ih =>
    rw [String.intercalate_cons_cons, String.toList_append, String.toList_append, ih,
      List.flatMap_cons, List.append_assoc]
    rfl

mutual

/-- **The words that are written for a content make its text.** -/
theorem flatten_words : ∀ content : Content, content.IsPlain →
    (content.tree printedForm).words.flatten = content.text.toList
  | .number value, _ => by
    rw [tree, text]
    split
    next finite => simp [Tree.words, text_printedForm finite]
    next infinite =>
      rw [snapshot_eq_null (Bool.eq_false_iff.mpr infinite)]
      rfl
  | .record [], _ => rfl
  | .record ((name, content) :: rest), plain => by
    obtain ⟨isName, own, others⟩ := plain
    rw [tree, fieldTrees, Tree.words, text, fieldTexts, String.toList_append, String.toList_append,
      toList_intercalate]
    simp [flatten_words content own, flatten_fieldWords rest others, quotedText, key,
      text_plainLetters isName]
  | .sequence [], _ => rfl
  | .sequence (content :: rest), plain => by
    obtain ⟨own, others⟩ := plain
    rw [tree, trees, Tree.words, text, texts, String.toList_append, String.toList_append,
      toList_intercalate]
    simp [flatten_words content own, flatten_itemWords rest others]

theorem flatten_itemWords : ∀ contents : List Content, AllArePlain contents →
    (Tree.itemWords (trees printedForm contents)).flatten =
      (texts contents).flatMap fun text => ',' :: text.toList
  | [], _ => rfl
  | content :: rest, plain => by
    obtain ⟨own, others⟩ := plain
    rw [trees, Tree.itemWords, texts, List.flatten_cons, List.flatten_append,
      flatten_words content own, flatten_itemWords rest others]
    rfl

theorem flatten_fieldWords : ∀ fields : List (String × Content), FieldsArePlain fields →
    (Tree.fieldWords (fieldTrees printedForm fields)).flatten =
      (fieldTexts fields).flatMap fun text => ',' :: text.toList
  | [], _ => rfl
  | (name, content) :: rest, plain => by
    obtain ⟨isName, own, others⟩ := plain
    rw [fieldTrees, Tree.fieldWords, fieldTexts]
    simp [flatten_words content own, flatten_fieldWords rest others, quotedText, key,
      text_plainLetters isName]

end

end Content

/-! ### The rules -/

section Sequences

variable {β : Type} {read : Decoder β} {items : List Tree} {item : Tree} {problem : Problem}

theorem takeValue_sequence (read : Decoder β) (items : List Tree) :
    takeValue (Value.sequence read) (.array items) = (Tree.values items).mapM read := by
  unfold takeValue
  rw [Tree.value, Value.sequence]
  cases (Tree.values items).mapM read <;> rfl

/-- An entry that does not fit is a problem of the sequence, if there is no other before it. -/
theorem mapM_refused (member : item ∈ items) (misfit : takeValue read item = .error problem) :
    ∃ first, (Tree.values items).mapM read = .error first := by
  induction items with
  | nil => exact absurd member List.not_mem_nil
  | cons own rest ih =>
    rw [Tree.values, List.mapM_cons]
    cases fit : read own.value with
    | error first => exact ⟨first, rfl⟩
    | ok content =>
      rcases List.mem_cons.mp member with rfl | later
      · cases misfit.symm.trans fit
      · obtain ⟨first, refused⟩ := ih later
        rw [refused]
        exact ⟨first, rfl⟩

end Sequences

/-- **The library of the program follows the rules**, however many arrays and objects stand in one
another. -/
theorem library_documented (levels : ℕ) :
    library.Documented printedForm (fun _ => takeValue) levels where
  text := by
    intro β reader tree text isText
    show decode reader text = _
    unfold decode
    rw [isText.ofText_eq]
    cases fit : reader tree.value <;> simp [takeValue, fit]
  null _ := ⟨_, rfl⟩
  sequence := by
    intro β reader level items values each
    refine (takeValue_sequence reader items).trans ?_
    rw [Tree.values_eq_map]
    exact Shape.mapM_ok_of_forall₂ (List.forall₂_map_left_iff.mpr each)
  sequence_refused := by
    intro β reader level items item problem member misfit
    obtain ⟨first, refused⟩ := mapM_refused member misfit
    exact ⟨first, (takeValue_sequence reader items).trans refused⟩
  object distinct keys given := Shape.read_object distinct keys given
  object_refused distinct keys i inside one misfit :=
    Shape.read_object_refused distinct keys (Vector.getElem_mem inside)
      (one ▸ List.mem_singleton_self _) misfit
  array distinct short given := Shape.read_array distinct short given
  written content plain := by
    refine ⟨content.text, rfl, ?_⟩
    unfold Tree.IsText
    rw [← content.flatten_words plain]
    exact Spaced.flatten _

end Easing.Json
