/-
**Taking annotations out of a text.**

An annotation is a colon and a blank with the words for a kind of values behind them. The words for
one kind can begin with those for another, so the longest are taken out first. In a text where no
annotation is followed by a bracket or a colon, and where what follows another colon begins like no
annotation, this takes out the annotations and nothing else.

* `erase`: a text without the occurrences of a pattern.
* `Annotated`: a text with annotations, beside the same text without them.
* `Annotated.erase`: the step, one kind of annotations; `Annotated.eraseAll`: all of them.
-/
import Easing.Script.Wrap
import Mathlib.Data.List.Infix
import Mathlib.Data.List.Count

namespace Easing.Script

/-! ### Patterns -/

/-- The text without the occurrences of a pattern, found from left to right. -/
def erase (pattern : List Char) : List Char → List Char
  | [] => []
  | c :: rest =>
    if pattern <+: c :: rest then erase pattern (rest.drop (pattern.length - 1))
    else c :: erase pattern rest
termination_by text => text.length
decreasing_by
  all_goals simp only [List.length_cons, List.length_drop]
  all_goals omega

section Patterns

variable {pattern text : List Char}

theorem erase_nil (pattern : List Char) : erase pattern [] = [] := by rw [erase]

/-- An occurrence is taken out. -/
theorem erase_append_self (some : pattern ≠ []) :
    erase pattern (pattern ++ text) = erase pattern text := by
  obtain ⟨c, rest, rfl⟩ := List.exists_cons_of_ne_nil some
  rw [List.cons_append, erase, if_pos ⟨text, rfl⟩, List.length_cons, Nat.add_sub_cancel,
    List.drop_left]

/-- A character where no occurrence begins stays. -/
theorem erase_cons {c : Char} (absent : ¬pattern <+: c :: text) :
    erase pattern (c :: text) = c :: erase pattern text := by
  rw [erase, if_neg absent]

/-- Characters that no occurrence begins with stay. -/
theorem erase_append {first : Char} {more front : List Char} (absent : first ∉ front)
    (back : List Char) :
    erase (first :: more) (front ++ back) = front ++ erase (first :: more) back := by
  induction front with
  | nil => rfl
  | cons c front ih =>
    rw [List.mem_cons, not_or] at absent
    have other : ¬first :: more <+: c :: (front ++ back) := fun occurs =>
      absent.1 (List.cons_prefix_cons.mp occurs).1
    rw [List.cons_append, erase_cons other, ih absent.2, List.cons_append]

end Patterns

/-! ### Annotations -/

/-- The characters of an annotation. -/
def Kind.note (kind : Kind) : List Char := (kind.text .typed).toList

theorem Kind.note_eq (kind : Kind) : kind.note = ':' :: ' ' :: kind.words.toList := by
  cases kind <;> decide

/-- The words begin with a bracket or an `n`. -/
theorem Kind.words_cons (kind : Kind) :
    ∃ c rest, kind.words.toList = c :: rest ∧ c ∈ ['(', '[', 'n'] := by
  cases kind
  · exact ⟨'n', _, rfl, by decide⟩
  · exact ⟨'n', _, rfl, by decide⟩
  · exact ⟨'[', _, rfl, by decide⟩
  · exact ⟨'n', _, rfl, by decide⟩
  · exact ⟨'(', _, rfl, by decide⟩

/-- An annotation of the second kind holds none of the first and begins none, when no bracket comes
after it. -/
def Kind.Precedes (kind other : Kind) : Prop :=
  ':' ∉ other.words.toList ∧ ¬kind.note <+: other.note ∧
    (other.note <+: kind.note → (kind.note.drop other.note.length).head? = some '[')

instance (kind other : Kind) : Decidable (kind.Precedes other) :=
  inferInstanceAs (Decidable (_ ∧ _ ∧ _))

/-- The kinds of values, those with the longest words first. -/
def Kind.order : List Kind := [.numberFunction, .pairs, .rows, .numbers, .number]

theorem Kind.mem_order (kind : Kind) : kind ∈ Kind.order := by
  cases kind <;> simp [Kind.order]

theorem Kind.ordered : Kind.order.Pairwise Kind.Precedes := by decide

/-- What the words of an annotation begin with, and the colon before them. -/
def noteOpenings : List Char := ['(', '[', 'n', ':']

/-- A text with annotations of the given kinds, beside the text without them. No bracket and no
colon comes after an annotation. What comes after any other colon begins like no annotation. -/
inductive Annotated (kinds : List Kind) : List Char → List Char → Prop
  | nil : Annotated kinds [] []
  | plain {c : Char} {t u : List Char} (noColon : c ≠ ':') (noPlace : c ≠ '@')
      (rest : Annotated kinds t u) : Annotated kinds (c :: t) (c :: u)
  | alternative {t u : List Char} (apart : ∀ c ∈ t.head?, c ∉ noteOpenings)
      (rest : Annotated kinds t u) : Annotated kinds (':' :: ' ' :: t) (':' :: ' ' :: u)
  | note {kind : Kind} {t u : List Char} (member : kind ∈ kinds)
      (apart : ∀ c ∈ t.head?, c ∉ ['[', ':']) (rest : Annotated kinds t u) :
      Annotated kinds (kind.note ++ t) u

namespace Annotated

variable {kinds : List Kind} {t u : List Char}

/-- Before anything but a colon both texts are alike. -/
theorem head?_eq (annotated : Annotated kinds t u) (noColon : ∀ c ∈ t.head?, c ≠ ':') :
    u.head? = t.head? := by
  cases annotated with
  | nil => rfl
  | plain => rfl
  | alternative => exact absurd rfl (noColon ':' rfl)
  | @note kind t =>
    rw [kind.note_eq] at noColon
    exact absurd rfl (noColon ':' rfl)

/-- A note that would begin where another one stands must go on behind it. -/
theorem not_note_prefix {kind other : Kind} (precedes : kind.Precedes other)
    (apart : ∀ c ∈ t.head?, c ≠ '[') : ¬kind.note <+: other.note ++ t := by
  intro occurs
  rcases List.prefix_or_prefix_of_prefix occurs (List.prefix_append other.note t) with
    within | beyond
  · exact precedes.2.1 within
  · have goesOn := precedes.2.2 beyond
    obtain ⟨more, longer⟩ := beyond
    rw [← longer, List.prefix_append_right_inj] at occurs
    rw [← longer, List.drop_left] at goesOn
    obtain ⟨rest, rfl⟩ := occurs
    cases more with
    | nil => cases goesOn
    | cons c more => exact apart c rfl (Option.some.inj goesOn)

/-- What comes before anything but a colon stays. -/
theorem head?_erase {kind : Kind} (noColon : ∀ c ∈ t.head?, c ≠ ':') :
    (Script.erase kind.note t).head? = t.head? := by
  cases t with
  | nil => rw [erase_nil]
  | cons c t =>
    have absent : ¬kind.note <+: c :: t := by
      rw [kind.note_eq]
      exact fun occurs => noColon c rfl (List.cons_prefix_cons.mp occurs).1.symm
    rw [erase_cons absent]
    rfl

/-- **Erasing one kind** leaves the other annotations, as far as they are shorter. -/
theorem erase {kind : Kind} (annotated : Annotated (kind :: kinds) t u)
    (precedes : ∀ other ∈ kinds, kind.Precedes other) :
    Annotated kinds (Script.erase kind.note t) u := by
  induction annotated with
  | nil =>
    rw [erase_nil]
    exact .nil
  | @plain c t u noColon noPlace rest ih =>
    have absent : ¬kind.note <+: c :: t := by
      rw [kind.note_eq]
      exact fun occurs => noColon (List.cons_prefix_cons.mp occurs).1.symm
    rw [erase_cons absent]
    exact .plain noColon noPlace ih
  | @alternative t u apart rest ih =>
    have head : (Script.erase kind.note t).head? = t.head? := head?_erase fun c first same =>
      apart c first (by rw [same]; decide)
    -- neither the colon nor the blank begins an occurrence
    have absent : ¬kind.note <+: ':' :: ' ' :: t := by
      obtain ⟨c, words, isWords, begins⟩ := kind.words_cons
      rw [kind.note_eq, isWords, List.cons_prefix_cons, List.cons_prefix_cons]
      rintro ⟨-, -, rest, rfl⟩
      exact apart c rfl (List.mem_append_left [':'] begins)
    have absent' : ¬kind.note <+: ' ' :: t := by
      rw [kind.note_eq]
      exact fun occurs => absurd (List.cons_prefix_cons.mp occurs).1 (by decide)
    rw [erase_cons absent, erase_cons absent']
    exact .alternative (head ▸ apart) ih
  | @note other t u member apart rest ih =>
    have head : (Script.erase kind.note t).head? = t.head? := head?_erase fun c first same =>
      apart c first (by rw [same]; decide)
    rcases List.mem_cons.mp member with rfl | member
    · rw [erase_append_self (by rw [other.note_eq]; exact List.cons_ne_nil _ _)]
      exact ih
    · -- no occurrence begins with the other annotation, and none inside it, where no colon is
      have bare : ':' ∉ ' ' :: other.words.toList := by
        rw [List.mem_cons, not_or]
        exact ⟨by decide, (precedes other member).1⟩
      have absent := not_note_prefix (t := t) (precedes other member) fun c first same =>
        apart c first (by rw [same]; decide)
      have same : Script.erase kind.note (other.note ++ t) =
          other.note ++ Script.erase kind.note t := by
        rw [other.note_eq, List.cons_append] at absent ⊢
        rw [erase_cons absent, kind.note_eq, erase_append bare]
        rfl
      rw [same]
      exact .note member (head ▸ apart) ih

/-- Where nothing is annotated the texts are the same. -/
theorem eq_of_nil (annotated : Annotated [] t u) : t = u := by
  induction annotated with
  | nil => rfl
  | plain noColon noPlace rest ih => rw [ih]
  | alternative apart rest ih => rw [ih]
  | note member apart rest ih => cases member

/-- **Erasing the kinds one after the other**, the longest first, gives the text without
annotations. -/
theorem eraseAll (annotated : Annotated kinds t u) (ordered : kinds.Pairwise Kind.Precedes) :
    kinds.foldl (fun text kind => Script.erase kind.note text) t = u := by
  induction kinds generalizing t with
  | nil => exact annotated.eq_of_nil
  | cons kind kinds ih =>
    obtain ⟨precedes, ordered⟩ := List.pairwise_cons.mp ordered
    exact ih (annotated.erase precedes) ordered

/-- The text without annotations holds none. -/
theorem noteless (annotated : Annotated kinds t u) (kind : Kind) : ¬kind.note <:+: u := by
  induction annotated with
  | nil =>
    rw [kind.note_eq, List.infix_nil]
    exact List.cons_ne_nil _ _
  | plain noColon noPlace rest ih =>
    rw [List.infix_cons_iff, not_or]
    refine ⟨fun occurs => ?_, ih⟩
    rw [kind.note_eq] at occurs
    exact noColon (List.cons_prefix_cons.mp occurs).1.symm
  | @alternative t u apart rest ih =>
    rw [List.infix_cons_iff, List.infix_cons_iff, not_or, not_or]
    have head := rest.head?_eq fun c first same => apart c first (by rw [same]; decide)
    refine ⟨fun occurs => ?_, fun occurs => ?_, ih⟩
    · obtain ⟨c, words, isWords, begins⟩ := kind.words_cons
      rw [kind.note_eq, isWords, List.cons_prefix_cons, List.cons_prefix_cons] at occurs
      obtain ⟨-, -, more, rfl⟩ := occurs
      exact apart c (head ▸ rfl) (List.mem_append_left [':'] begins)
    · rw [kind.note_eq] at occurs
      exact absurd (List.cons_prefix_cons.mp occurs).1 (by decide)
  | note member apart rest ih => exact ih

theorem not_mem_place (annotated : Annotated kinds t u) : '@' ∉ t ∧ '@' ∉ u := by
  induction annotated with
  | nil => exact ⟨List.not_mem_nil, List.not_mem_nil⟩
  | plain noColon noPlace rest ih =>
    rw [List.mem_cons, List.mem_cons, not_or, not_or]
    exact ⟨⟨noPlace.symm, ih.1⟩, noPlace.symm, ih.2⟩
  | alternative apart rest ih => simpa using ih
  | @note kind t u member apart rest ih =>
    have bare : '@' ∉ kind.note := by cases kind <;> decide
    rw [List.mem_append, not_or]
    exact ⟨⟨bare, ih.1⟩, ih.2⟩

/-- Both texts have as many line feeds. -/
theorem count_feed (annotated : Annotated kinds t u) : t.count '\n' = u.count '\n' := by
  induction annotated with
  | nil => rfl
  | plain noColon noPlace rest ih => rw [List.count_cons, List.count_cons, ih]
  | alternative apart rest ih => simpa using ih
  | @note kind t u member apart rest ih =>
    have none : kind.note.count '\n' = 0 := by cases kind <;> decide
    rw [List.count_append, none, Nat.zero_add, ih]

end Annotated

/-! ### Lines -/

/-- Any other character before a line makes no line. -/
theorem length_splitChars_cons {c : Char} {rest : List Char} (noFeed : c ≠ '\n')
    (some : splitChars rest ≠ []) : (splitChars (c :: rest)).length = (splitChars rest).length := by
  by_cases pair : ∃ more, c = '\r' ∧ rest = '\n' :: more
  · obtain ⟨more, rfl, rfl⟩ := pair
    rfl
  · obtain ⟨line, more, lines⟩ := List.exists_cons_of_ne_nil some
    rw [splitChars, lines]
    · rfl
    · exact noFeed
    · exact fun more carriage feed => pair ⟨more, carriage, feed⟩

/-- A text that ends with a line feed has as many lines as feeds. -/
theorem length_splitChars (text : List Char) :
    (splitChars (text ++ ['\n'])).length = text.count '\n' + 1 := by
  induction text with
  | nil => rfl
  | cons c text ih =>
    rw [List.cons_append]
    by_cases feed : c = '\n'
    · rw [feed, splitChars, List.length_cons, ih, List.count_cons_self]
    · have some : splitChars (text ++ ['\n']) ≠ [] := List.ne_nil_of_length_eq_add_one ih
      rw [length_splitChars_cons feed some, ih, List.count_cons_of_ne feed]

end Easing.Script
