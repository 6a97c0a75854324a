/-
**The text of a double tells which double it is.**

A number is written as whole digits, perhaps a point and more digits, perhaps an exponent mark
(`Spelling`). The value can be read off such a text, so two finite doubles with the same text are
rounded from the same decimal and have the same sign: they are one.

* `Spelling.numberOf_text`: the value of a spelling, read off its text.
* `Layout.decimalText_spelled`: every layout spells the value of its decimal.
* `Layout.write_injective`: finite doubles of the same text are the same.
-/
import Easing.Decimal.Layout
import Easing.Decimal.Shortest
import Easing.Proofs.Decimal.Binary
import Easing.Proofs.Decimal.Shortest

namespace Easing.Decimal

open Easing.Binary64

noncomputable section

/-! ### Reading a number -/

/-- What stands before and after the first mark. -/
def cut (mark : Char) (text : List Char) : List Char × List Char :=
  (text.takeWhile (· != mark), (text.dropWhile (· != mark)).tail)

/-- The number with a sign. -/
def signedOf : List Char → ℤ
  | '-' :: digits => -ofDigits digits
  | _ :: digits => ofDigits digits
  | [] => 0

/-- The number that a text without a sign stands for. -/
def numberOf (text : List Char) : ℝ :=
  let (mantissa, exponent) := cut 'e' text
  let (whole, fraction) := cut '.' mantissa
  ofDigits (whole ++ fraction) * 10 ^ (signedOf exponent - fraction.length)

theorem cut_append {mark : Char} {front : List Char} (absent : mark ∉ front) (back : List Char) :
    cut mark (front ++ mark :: back) = (front, back) := by
  have all : ∀ c ∈ front, (c != mark) = true := fun c member =>
    bne_iff_ne.mpr fun same => absent (same ▸ member)
  unfold cut
  rw [List.takeWhile_append_of_pos all, List.dropWhile_append_of_pos all]
  simp

theorem cut_absent {mark : Char} {text : List Char} (absent : mark ∉ text) :
    cut mark text = (text, []) := by
  have all : ∀ c ∈ text, (c != mark) = true := fun c member =>
    bne_iff_ne.mpr fun same => absent (same ▸ member)
  unfold cut
  rw [List.takeWhile_eq_self_iff.mpr all, List.dropWhile_eq_nil_iff.mpr all]
  rfl

theorem ofDigits_eq (digits : List Char) : ofDigits digits = Nat.ofDigitChars 10 digits 0 :=
  Nat.ofDigitChars_eq_foldl.symm

theorem ofDigits_toDigits (n : ℕ) : ofDigits (Nat.toDigits 10 n) = n := by
  rw [ofDigits_eq, Nat.ofDigitChars_ten_toDigits]

theorem ofDigits_append (front back : List Char) :
    ofDigits (front ++ back) = 10 ^ back.length * ofDigits front + ofDigits back := by
  rw [ofDigits_eq, ofDigits_eq, ofDigits_eq, Nat.ofDigitChars_append,
    Nat.ofDigitChars_eq_ofDigitChars_zero]

theorem ofDigits_zeros (count : ℕ) : ofDigits (List.replicate count '0') = 0 := by
  rw [ofDigits_eq, Nat.ofDigitChars_replicate_zero, mul_zero]

/-! ### Spellings -/

/-- A text is made of digits. -/
def AllDigits (text : List Char) : Prop := ∀ c ∈ text, c.isDigit = true

theorem allDigits_toDigits (n : ℕ) : AllDigits (Nat.toDigits 10 n) :=
  fun _ member => Nat.isDigit_of_mem_toDigits (by decide) (by decide) member

theorem allDigits_zeros (count : ℕ) : AllDigits (List.replicate count '0') := by
  intro c member
  rw [List.eq_of_mem_replicate member]
  rfl

theorem AllDigits.append {front back : List Char} (digits : AllDigits front)
    (digits' : AllDigits back) : AllDigits (front ++ back) := by
  intro c member
  rcases List.mem_append.mp member with inside | inside
  · exact digits c inside
  · exact digits' c inside

theorem AllDigits.not_mem {text : List Char} (digits : AllDigits text) {mark : Char}
    (noDigit : mark.isDigit = false) : mark ∉ text := by
  intro member
  rw [digits mark member] at noDigit
  cases noDigit

/-- A number as it is written. -/
structure Spelling where
  whole : List Char
  fraction : List Char
  exponent : Option ℤ
  nonempty : whole ≠ []
  wholeDigits : AllDigits whole
  /-- A zero is not followed by digits. -/
  plain : ∀ rest, whole = '0' :: rest → rest = []
  fractionDigits : AllDigits fraction

namespace Spelling

/-- The digits after the point, with the point. -/
def pointText (fraction : List Char) : List Char := if fraction = [] then [] else '.' :: fraction

/-- The exponent with its mark and its sign. -/
def markText : Option ℤ → List Char
  | none => []
  | some exponent =>
    'e' :: (if exponent < 0 then '-' else '+') :: Nat.toDigits 10 exponent.natAbs

def text (s : Spelling) : List Char := s.whole ++ pointText s.fraction ++ markText s.exponent

def value (s : Spelling) : ℝ :=
  ofDigits (s.whole ++ s.fraction) * 10 ^ (s.exponent.getD 0 - s.fraction.length)

/-- What a number is written with. -/
def IsMark (c : Char) : Prop := c.isDigit = true ∨ c = '.' ∨ c = 'e' ∨ c = '+' ∨ c = '-'

theorem isMark_of_mem (s : Spelling) {c : Char} (member : c ∈ s.text) : IsMark c := by
  unfold text at member
  rcases List.mem_append.mp member with mantissa | mark
  · rcases List.mem_append.mp mantissa with whole | point
    · exact Or.inl (s.wholeDigits c whole)
    · unfold pointText at point
      split at point
      · exact absurd point List.not_mem_nil
      · rcases List.mem_cons.mp point with rfl | fraction
        · exact Or.inr (Or.inl rfl)
        · exact Or.inl (s.fractionDigits c fraction)
  · cases exponent : s.exponent with
    | none =>
      rw [exponent] at mark
      exact absurd mark List.not_mem_nil
    | some k =>
      rw [exponent] at mark
      rcases List.mem_cons.mp mark with rfl | mark
      · exact Or.inr (Or.inr (Or.inl rfl))
      rcases List.mem_cons.mp mark with rfl | digits
      · split
        · exact Or.inr (Or.inr (Or.inr (Or.inr rfl)))
        · exact Or.inr (Or.inr (Or.inr (Or.inl rfl)))
      · exact Or.inl (allDigits_toDigits _ c digits)

/-- A number begins with a digit. -/
theorem text_ne_minus (s : Spelling) (rest : List Char) : s.text ≠ '-' :: rest := by
  intro same
  unfold text at same
  cases whole : s.whole with
  | nil => exact s.nonempty whole
  | cons c digits =>
    rw [whole, List.cons_append, List.cons_append, List.cons.injEq] at same
    have digit := s.wholeDigits c (by rw [whole]; exact List.mem_cons_self)
    rw [same.1] at digit
    exact absurd digit (by decide)

theorem signedOf_mark (exponent : ℤ) :
    signedOf ((if exponent < 0 then '-' else '+') :: Nat.toDigits 10 exponent.natAbs) =
      exponent := by
  split_ifs with negative
  · show -(ofDigits (Nat.toDigits 10 exponent.natAbs) : ℤ) = exponent
    rw [ofDigits_toDigits]
    omega
  · show (ofDigits (Nat.toDigits 10 exponent.natAbs) : ℤ) = exponent
    rw [ofDigits_toDigits]
    omega

/-- **The value of a spelling can be read off its text.** -/
theorem numberOf_text (s : Spelling) : numberOf s.text = s.value := by
  have noMark : 'e' ∉ s.whole ++ pointText s.fraction := by
    intro member
    rcases List.mem_append.mp member with whole | point
    · exact s.wholeDigits.not_mem (by decide) whole
    · unfold pointText at point
      split at point
      · exact absurd point List.not_mem_nil
      · rcases List.mem_cons.mp point with same | fraction
        · exact absurd same (by decide)
        · exact s.fractionDigits.not_mem (by decide) fraction
  have noPoint : '.' ∉ s.whole := s.wholeDigits.not_mem (by decide)
  have outer : cut 'e' s.text =
      (s.whole ++ pointText s.fraction, (markText s.exponent).tail) := by
    unfold text
    cases s.exponent with
    | none =>
      rw [markText, List.append_nil, cut_absent noMark]
      rfl
    | some exponent => exact cut_append noMark _
  have inner : cut '.' (s.whole ++ pointText s.fraction) = (s.whole, s.fraction) := by
    unfold pointText
    split
    case isTrue none => rw [none, List.append_nil, cut_absent noPoint]
    case isFalse => exact cut_append noPoint _
  have exponent : signedOf (markText s.exponent).tail = s.exponent.getD 0 := by
    cases s.exponent with
    | none => rfl
    | some exponent => exact signedOf_mark exponent
  unfold numberOf
  simp only [outer, inner, exponent]
  rfl

end Spelling

/-! ### Layouts -/

/-- The digits of a decimal. -/
theorem toList_toString (n : ℕ) : (toString n).toList = Nat.toDigits 10 n := Nat.toList_repr

/-- As many digits are written as are counted. -/
theorem length_toDigits {n : ℕ} (positive : 0 < n) : (Nat.toDigits 10 n).length = digitCount n := by
  induction n using digitCount.induct with
  | case1 => exact absurd positive (Nat.lt_irrefl 0)
  | case2 n nonzero ih =>
    rw [digitCount, dif_neg nonzero, Nat.toDigits_eq_if (by decide)]
    split_ifs with small
    · rw [Nat.div_eq_of_lt small, digitCount, dif_pos rfl]
      rfl
    · rw [List.length_append, ih (by omega)]
      rfl

/-- The digits of a positive number do not begin with a zero. -/
theorem toDigits_ne_zero_cons {n : ℕ} (positive : 0 < n) (rest : List Char) :
    Nat.toDigits 10 n ≠ '0' :: rest := by
  induction n using digitCount.induct generalizing rest with
  | case1 => exact absurd positive (Nat.lt_irrefl 0)
  | case2 n nonzero ih =>
    rw [Nat.toDigits_eq_if (by decide)]
    split_ifs with small
    · interval_cases n <;> simp_all [Nat.digitChar]
    · intro same
      obtain ⟨first, more, digits⟩ :=
        List.exists_cons_of_ne_nil (Nat.toDigits_ne_nil (b := 10) (n := n / 10))
      rw [digits, List.cons_append, List.cons.injEq] at same
      exact ih (by omega) more (digits.trans (by rw [same.1]))

/-- More zeros follow no zero. -/
theorem plain_toDigits_zeros {d : Scaled} (proper : 0 < d.digits ∨ d.place ≤ 0)
    (rest : List Char) :
    Nat.toDigits 10 d.digits ++ List.replicate d.place.toNat '0' = '0' :: rest → rest = [] := by
  rcases Nat.eq_zero_or_pos d.digits with zero | positive
  · have none : d.place.toNat = 0 := by omega
    rw [zero, none]
    exact fun same => (List.cons.inj same).2.symm
  · obtain ⟨first, more, digits⟩ :=
      List.exists_cons_of_ne_nil (Nat.toDigits_ne_nil (b := 10) (n := d.digits))
    intro same
    rw [digits, List.cons_append, List.cons.injEq] at same
    exact absurd (digits.trans (by rw [same.1])) (toDigits_ne_zero_cons positive more)

/-- The value of a spelling whose digits are those of a decimal with more zeros. -/
theorem Spelling.value_eq (s : Spelling) {d : Scaled} (zeros : ℕ)
    (digits : ofDigits (s.whole ++ s.fraction) = 10 ^ zeros * d.digits)
    (place : s.exponent.getD 0 - s.fraction.length = d.place - zeros) : s.value = d.value := by
  unfold value Scaled.value
  rw [digits, place, zpow_sub₀ (by norm_num), zpow_natCast]
  push_cast
  field_simp

namespace Layout

/-- A text spells a value. -/
def Spells (text : String) (x : ℝ) : Prop := ∃ s : Spelling, s.text = text.toList ∧ s.value = x

variable {layout : Layout} {d : Scaled}

theorem length_toString (n : ℕ) : (toString n).length = (Nat.toDigits 10 n).length := by
  rw [← String.length_toList, toList_toString]

/-- A whole number, with its zeros. -/
theorem positionalText_whole (proper : 0 < d.digits ∨ d.place ≤ 0) (right : 0 ≤ d.place) :
    Spells (layout.positionalText d) d.value := by
  have all : AllDigits (Nat.toDigits 10 d.digits ++ List.replicate d.place.toNat '0') :=
    (allDigits_toDigits _).append (allDigits_zeros _)
  have some : Nat.toDigits 10 d.digits ++ List.replicate d.place.toNat '0' ≠ [] := by simp
  have whole : ofDigits (Nat.toDigits 10 d.digits ++ List.replicate d.place.toNat '0') =
      10 ^ d.place.toNat * d.digits := by
    rw [ofDigits_append, ofDigits_toDigits, ofDigits_zeros, List.length_replicate, add_zero]
  unfold positionalText
  dsimp only
  rw [if_pos right]
  cases layout.wholeFraction with
  | true =>
    refine ⟨⟨_, ['0'], none, some, all, plain_toDigits_zeros proper, allDigits_zeros 1⟩, ?_, ?_⟩
    · simp [Spelling.text, Spelling.pointText, Spelling.markText, zeros]
    · refine Spelling.value_eq _ (d.place.toNat + 1) ?_ ?_
      · rw [ofDigits_append, whole, show ofDigits ['0'] = 0 from rfl, add_zero, pow_succ',
          mul_assoc]
        rfl
      · simp only [Option.getD_none, List.length_singleton]
        omega
  | false =>
    refine ⟨⟨_, [], none, some, all, plain_toDigits_zeros proper,
      fun _ member => absurd member List.not_mem_nil⟩, ?_, ?_⟩
    · simp [Spelling.text, Spelling.pointText, Spelling.markText, zeros]
    · refine Spelling.value_eq _ (d.place.toNat) ?_ ?_
      · rw [List.append_nil, whole]
      · simp only [Option.getD_none, List.length_nil]
        omega

/-- The point stands between two digits. -/
theorem positionalText_inside (left : d.place < 0)
    (inside : (-d.place).toNat < (Nat.toDigits 10 d.digits).length) :
    Spells (layout.positionalText d) d.value := by
  have digits := allDigits_toDigits d.digits
  obtain ⟨count, isCount⟩ :
      ∃ count, (Nat.toDigits 10 d.digits).length - (-d.place).toNat = count := ⟨_, rfl⟩
  have fraction : (Nat.toDigits 10 d.digits).drop count ≠ [] := by
    rw [Ne, List.drop_eq_nil_iff]
    omega
  have whole : (Nat.toDigits 10 d.digits).take count ≠ [] := by
    rw [Ne, List.take_eq_nil_iff, not_or]
    exact ⟨by omega, by simp⟩
  have positive : 0 < d.digits := by
    refine Nat.pos_of_ne_zero fun zero => ?_
    rw [zero, show Nat.toDigits 10 0 = ['0'] from rfl, List.length_singleton] at inside
    omega
  have plain : ∀ rest, (Nat.toDigits 10 d.digits).take count = '0' :: rest → rest = [] := by
    intro rest front
    have digits := List.take_append_drop count (Nat.toDigits 10 d.digits)
    rw [front, List.cons_append] at digits
    exact absurd digits.symm (toDigits_ne_zero_cons positive _)
  unfold positionalText
  dsimp only
  rw [if_neg (by omega), length_toString, if_pos inside, isCount, toList_toString]
  refine ⟨⟨_, (Nat.toDigits 10 d.digits).drop count, none, whole,
    fun c member => digits c (List.mem_of_mem_take member), plain,
    fun c member => digits c (List.mem_of_mem_drop member)⟩, ?_, ?_⟩
  · simp only [Spelling.text, Spelling.pointText, Spelling.markText, if_neg fraction]
    simp
  · refine Spelling.value_eq _ 0 ?_ ?_
    · rw [List.take_append_drop, ofDigits_toDigits, pow_zero, one_mul]
    · simp only [Option.getD_none, List.length_drop]
      omega

/-- The number is less than one. -/
theorem positionalText_small (left : d.place < 0)
    (outside : ¬(-d.place).toNat < (Nat.toDigits 10 d.digits).length) :
    Spells (layout.positionalText d) d.value := by
  have digits := (allDigits_zeros ((-d.place).toNat - (Nat.toDigits 10 d.digits).length)).append
    (allDigits_toDigits d.digits)
  unfold positionalText
  dsimp only
  rw [if_neg (by omega), length_toString, if_neg outside]
  refine ⟨⟨['0'], _, none, by simp, allDigits_zeros 1, fun _ same => (List.cons.inj same).2.symm,
    digits⟩, ?_, ?_⟩
  · simp [Spelling.text, Spelling.pointText, Spelling.markText, zeros]
  · refine Spelling.value_eq _ 0 ?_ ?_
    · rw [ofDigits_append, ofDigits_append, show ofDigits ['0'] = 0 from rfl, ofDigits_zeros,
        ofDigits_toDigits, mul_zero, mul_zero, zero_add, zero_add, pow_zero, one_mul]
    · simp only [Option.getD_none, List.length_append, List.length_replicate]
      omega

theorem positionalText_spells (layout : Layout) (proper : 0 < d.digits ∨ d.place ≤ 0) :
    Spells (layout.positionalText d) d.value := by
  rcases lt_or_ge d.place 0 with left | right
  · by_cases inside : (-d.place).toNat < (Nat.toDigits 10 d.digits).length
    · exact positionalText_inside left inside
    · exact positionalText_small left inside
  · exact positionalText_whole proper right

/-- The text of an exponent. -/
theorem toList_mark (leading : ℤ) :
    ((if leading < 0 then "e-" else "e+") ++ toString leading.natAbs).toList =
      Spelling.markText (some leading) := by
  rw [String.toList_append, toList_toString]
  simp only [Spelling.markText]
  split <;> rfl

/-- With an exponent mark, the exponent is that of the leading digit. -/
theorem exponentText_spells (positive : 0 < d.digits) :
    Spells (exponentText d (d.place + (digitCount d.digits : ℤ) - 1)) d.value := by
  have digits := allDigits_toDigits d.digits
  have value := ofDigits_toDigits d.digits
  have length := length_toDigits positive
  unfold exponentText
  dsimp only
  rw [toList_toString]
  cases form : Nat.toDigits 10 d.digits with
  | nil => exact absurd form Nat.toDigits_ne_nil
  | cons digit rest =>
    rw [form] at digits value length
    have whole : AllDigits [digit] := fun c member => digits c (List.mem_cons.mpr
      (Or.inl (List.mem_singleton.mp member)))
    have fraction : AllDigits rest := fun c member => digits c (List.mem_cons_of_mem _ member)
    refine ⟨⟨[digit], rest, some (d.place + (digitCount d.digits : ℤ) - 1), by simp, whole,
      fun _ same => (List.cons.inj same).2.symm, fraction⟩, ?_, ?_⟩
    · cases rest with
      | nil =>
        rw [String.toList_append, toList_mark]
        simp [Spelling.text, Spelling.pointText]
      | cons next rest =>
        rw [String.toList_append, toList_mark]
        simp [Spelling.text, Spelling.pointText]
    · refine Spelling.value_eq _ 0 ?_ ?_
      · rw [List.singleton_append, value, pow_zero, one_mul]
      · show d.place + (digitCount d.digits : ℤ) - 1 - rest.length = d.place - (0 : ℕ)
        rw [List.length_cons] at length
        omega

/-- **Every layout spells the value of its decimal.** -/
theorem decimalText_spells (layout : Layout) (positive : 0 < d.digits) :
    Spells (layout.decimalText d) d.value := by
  unfold decimalText
  dsimp only
  split
  · split
    · exact positionalText_spells layout (.inl positive)
    · exact exponentText_spells positive
  · exact positionalText_spells layout (.inl positive)

/-! ### The text of a double -/

/-- What is written for a finite double: its sign, and a number that is rounded to it. -/
theorem write_spells (layout : Layout) {a : Float} (finite : Scalar.isFinite a = true) :
    ∃ (negative : Bool) (s : Spelling), (layout.write a).toList = (sign negative).toList ++ s.text ∧
      (Double.ofFloat a = .zero negative ∧ s.value = 0 ∨
        ∃ m : Magnitude, Double.ofFloat a = .finite negative m ∧ m.Legal ∧
          rounded s.value = m.value) := by
  unfold write
  rcases Double.finite_kinds finite with ⟨negative, kind⟩ | ⟨negative, m, kind⟩
  · obtain ⟨s, isText, isValue⟩ := positionalText_spells (d := ⟨0, 0⟩) layout (.inr le_rfl)
    refine ⟨negative, s, ?_, Or.inl ⟨kind, ?_⟩⟩
    · simp only [kind]
      rw [String.toList_append, isText]
    · rw [isValue]
      unfold Scaled.value
      rw [Nat.cast_zero, zero_mul]
  · have legal := Magnitude.legal_ofFloat kind
    have value := legal.rounded_shortest layout.tie
    have positive : 0 < (m.shortest layout.tie).digits := by
      refine Nat.pos_of_ne_zero fun zero => ?_
      unfold Scaled.value at value
      rw [zero, Nat.cast_zero, zero_mul, rounded_zero] at value
      exact (Magnitude.value_pos legal.positive).ne value
    obtain ⟨s, isText, isValue⟩ := decimalText_spells layout positive
    refine ⟨negative, s, ?_, Or.inr ⟨m, kind, legal, by rw [isValue, value]⟩⟩
    simp only [kind]
    rw [String.toList_append, isText]

/-- The sign can be told from what follows it. -/
theorem sign_append_injective {negative negative' : Bool} {s s' : Spelling}
    (same : (sign negative).toList ++ s.text = (sign negative').toList ++ s'.text) :
    negative = negative' ∧ s.text = s'.text := by
  cases negative <;> cases negative'
  · exact ⟨rfl, same⟩
  · exact absurd same (s.text_ne_minus s'.text)
  · exact absurd same.symm (s'.text_ne_minus s.text)
  · exact ⟨rfl, List.append_cancel_left same⟩

/-- **Finite doubles of the same text are the same.** -/
theorem write_injective (layout : Layout) {a b : Float} (finite : Scalar.isFinite a = true)
    (finite' : Scalar.isFinite b = true) (same : layout.write a = layout.write b) : a = b := by
  obtain ⟨negative, s, isText, kind⟩ := write_spells layout finite
  obtain ⟨negative', s', isText', kind'⟩ := write_spells layout finite'
  rw [same, isText'] at isText
  obtain ⟨rfl, texts⟩ := sign_append_injective isText
  have values : s'.value = s.value := by
    rw [← s'.numberOf_text, ← s.numberOf_text, texts]
  rw [values] at kind'
  rcases kind with ⟨kind, value⟩ | ⟨m, kind, legal, value⟩ <;>
    rcases kind' with ⟨kind', value'⟩ | ⟨m', kind', legal', value'⟩
  · exact Double.ofFloat_injective (by rw [kind]; simp) (by rw [kind, kind'])
  · rw [value, rounded_zero] at value'
    exact absurd value' (Magnitude.value_pos legal'.positive).ne
  · rw [value', rounded_zero] at value
    exact absurd value (Magnitude.value_pos legal.positive).ne
  · rw [value] at value'
    rw [legal.eq_of_value_eq legal' value'] at kind
    exact Double.ofFloat_injective (by rw [kind]; simp) (by rw [kind, kind'])

/-- A finite double is written without commas and braces. -/
theorem isMark_of_mem_write (layout : Layout) {a : Float} (finite : Scalar.isFinite a = true)
    {c : Char} (member : c ∈ (layout.write a).toList) : Spelling.IsMark c := by
  obtain ⟨negative, s, isText, -⟩ := write_spells layout finite
  rw [isText] at member
  rcases List.mem_append.mp member with minus | text
  · cases negative with
    | false => exact absurd minus List.not_mem_nil
    | true =>
      rw [List.mem_singleton.mp minus]
      exact Or.inr (Or.inr (Or.inr (Or.inr rfl)))
  · exact s.isMark_of_mem text

end Layout

end

end Easing.Decimal
