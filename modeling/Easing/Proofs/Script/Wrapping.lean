/-
**A function can be taken apart again.**

The lines between the first and the last one of a function, less the two blanks before each that is
not empty, are the lines of its body. So the body comes back, but for what its lines do not hold: a
carriage return right before a line feed, and whether a line feed ends the last line.

* `feedLines`: the lines of a text, where carriage returns are characters like others.
* `innerLines`, `unwrap`: the lines inside a function, and the text that they give.
* `feedsOnly`, `ended`: a text whose lines all end with a line feed alone;
  `toList_unlines_splitLines`: the lines of a body give such a text.
* `unwrap_wrap`: what comes back, for which bodies it is the body itself, and the lines inside.
-/
import Easing.Proofs.Script.Lines

namespace Easing.Script

/-! ### Inside a function -/

/-- The lines of a text, cut at line feeds and nowhere else. What follows the last line feed is a
line only when it is not empty. -/
def feedLines (text : String) : List String :=
  let pieces := text.toList.splitOn '\n'
  (if pieces.getLast? = some [] then pieces.dropLast else pieces).map String.ofList

/-- The lines of a text without the first and the last one. -/
def innerLines (text : String) : List String := (feedLines text).tail.dropLast

/-- A line without two blanks at its start. -/
def outdent (line : String) : String :=
  if [' ', ' '] <+: line.toList then String.ofList (line.toList.drop 2) else line

/-- The text inside a function. -/
def unwrap (text : String) : String := unlines ((innerLines text).map outdent)

theorem splitOn_unlines {lines : List String} (noFeed : ∀ line ∈ lines, '\n' ∉ line.toList) :
    (unlines lines).toList.splitOn '\n' = lines.map String.toList ++ [[]] := by
  induction lines with
  | nil => rfl
  | cons line lines ih =>
    have own := noFeed line List.mem_cons_self
    have others := ih fun other member => noFeed other (List.mem_cons_of_mem _ member)
    rw [toList_unlines_cons, List.splitOn_append_cons_self_of_not_mem own, others]
    rfl

/-- Lines without line feeds come back from their text. -/
theorem feedLines_unlines {lines : List String} (noFeed : ∀ line ∈ lines, '\n' ∉ line.toList) :
    feedLines (unlines lines) = lines := by
  unfold feedLines
  rw [splitOn_unlines noFeed]
  simp [Function.comp_def]

theorem not_mem_feed_header (dialect : Dialect) : '\n' ∉ (header dialect).toList := by
  cases dialect <;> decide

theorem not_mem_feed_bodyLine {line : String} (noFeed : '\n' ∉ line.toList) :
    '\n' ∉ (bodyLine line).toList := by
  unfold bodyLine
  split_ifs
  · exact noFeed
  · simpa using noFeed

/-- No line of a function has a line feed in it when no line of its body has. -/
theorem not_mem_feed_wrapped (dialect : Dialect) {lines : List String}
    (noFeed : ∀ line ∈ lines, '\n' ∉ line.toList) :
    ∀ line ∈ [header dialect] ++ lines.map bodyLine ++ ["\x7d"], '\n' ∉ line.toList := by
  intro line member
  simp only [List.mem_append, List.mem_singleton, List.mem_map] at member
  rcases member with (rfl | ⟨line, inside, rfl⟩) | rfl
  · exact not_mem_feed_header dialect
  · exact not_mem_feed_bodyLine (noFeed line inside)
  · decide

/-- The lines inside a function are those of its body, moved to the right. -/
theorem innerLines_wrapLines (dialect : Dialect) {lines : List String}
    (noFeed : ∀ line ∈ lines, '\n' ∉ line.toList) :
    innerLines (wrapLines dialect lines) = lines.map bodyLine := by
  unfold innerLines wrapLines
  rw [feedLines_unlines (not_mem_feed_wrapped dialect noFeed)]
  simp

theorem bodyLine_eq_empty {line : String} : bodyLine line = "" ↔ line = "" := by
  by_cases empty : line = ""
  · simp [bodyLine, empty]
  · simp [bodyLine, empty, String.append_eq_empty_iff]

/-- A line that is not empty is moved by two blanks. -/
theorem blanks_prefix_bodyLine {line : String} (some : line ≠ "") :
    [' ', ' '] <+: (bodyLine line).toList := by
  simp [bodyLine, some]

theorem outdent_bodyLine (line : String) : outdent (bodyLine line) = line := by
  unfold outdent bodyLine
  by_cases empty : line = ""
  · simp [empty]
  · simp [empty]

/-- **The lines of the body come back.** -/
theorem unwrap_wrapLines (dialect : Dialect) {lines : List String}
    (noFeed : ∀ line ∈ lines, '\n' ∉ line.toList) :
    unwrap (wrapLines dialect lines) = unlines lines := by
  unfold unwrap
  rw [innerLines_wrapLines dialect noFeed, List.map_map]
  congr 1
  exact (List.map_congr_left fun line _ => outdent_bodyLine line).trans lines.map_id

/-! ### The ends of lines -/

/-- The text without the carriage returns that are right before a line feed. -/
def feedsOnly : List Char → List Char
  | [] => []
  | '\r' :: '\n' :: rest => '\n' :: feedsOnly rest
  | c :: rest => c :: feedsOnly rest

/-- The text with a line feed at its end. The empty text has no line that could lack one. -/
def ended (text : List Char) : List Char :=
  if text = [] ∨ text.getLast? = some '\n' then text else text ++ ['\n']

section Ends

variable {text : List Char}

theorem getLast?_feedsOnly (text : List Char) : (feedsOnly text).getLast? = text.getLast? := by
  fun_induction feedsOnly text with
  | case1 => rfl
  | case2 rest ih => simp [List.getLast?_cons, ih]
  | case3 c rest noPair ih => simp [List.getLast?_cons, ih]

theorem feedsOnly_eq_nil : feedsOnly text = [] ↔ text = [] := by
  rw [← List.getLast?_eq_none_iff, getLast?_feedsOnly, List.getLast?_eq_none_iff]

theorem length_feedsOnly_le (text : List Char) : (feedsOnly text).length ≤ text.length := by
  fun_induction feedsOnly text with
  | case1 => exact Nat.le_refl 0
  | case2 rest ih =>
    simp only [List.length_cons]
    omega
  | case3 c rest noPair ih =>
    simp only [List.length_cons]
    omega

/-- A text stays as it is when no carriage return is right before a line feed. -/
theorem feedsOnly_eq_self_iff : feedsOnly text = text ↔ ¬['\r', '\n'] <:+: text := by
  fun_induction feedsOnly text with
  | case1 => simp
  | case2 rest ih =>
    refine iff_of_false (fun same => ?_) (not_not_intro ⟨[], rest, rfl⟩)
    have lengths := congrArg List.length same
    have shorter := length_feedsOnly_le rest
    simp only [List.length_cons] at lengths
    omega
  | case3 c rest noPair ih =>
    have absent : ¬['\r', '\n'] <+: c :: rest := by
      rintro ⟨more, same⟩
      cases same
      exact noPair more rfl rfl
    simp [List.infix_cons_iff, absent, ih]

theorem ended_feed (text : List Char) : ended ('\n' :: text) = '\n' :: ended text := by
  cases text with
  | nil => rfl
  | cons c rest => simp [ended, List.getLast?_cons_cons, apply_ite]

theorem ended_cons (c : Char) (some : text ≠ []) : ended (c :: text) = c :: ended text := by
  obtain ⟨d, rest, rfl⟩ := List.exists_cons_of_ne_nil some
  simp [ended, List.getLast?_cons_cons, apply_ite]

/-- **The texts whose lines all end with a line feed alone.** -/
theorem ended_feedsOnly_eq_self_iff : ended (feedsOnly text) = text ↔
    (text = [] ∨ text.getLast? = some '\n') ∧ ¬['\r', '\n'] <:+: text := by
  unfold ended
  simp only [feedsOnly_eq_nil, getLast?_feedsOnly]
  split_ifs with isEnded
  · rw [feedsOnly_eq_self_iff, and_iff_right isEnded]
  · -- the feed that is added would be one that the text has
    refine iff_of_false (fun same => isEnded (.inr ?_)) fun both => isEnded both.1
    rw [← same, List.getLast?_concat]

end Ends

/-! ### The lines of a body -/

theorem splitChars_eq_nil {text : List Char} : splitChars text = [] ↔ text = [] := by
  fun_cases splitChars text <;> simp

theorem not_mem_feed_splitChars (text : List Char) : ∀ line ∈ splitChars text, '\n' ∉ line := by
  fun_induction splitChars text with
  | case1 => simp
  | case2 rest ih => simpa using ih
  | case3 rest ih => simpa using ih
  | case4 c rest noFeed noPair none ih => simpa using Ne.symm noFeed
  | case5 c rest noFeed noPair line more lines ih =>
    rw [lines, List.forall_mem_cons] at ih
    rw [List.forall_mem_cons, List.mem_cons, not_or]
    exact ⟨⟨Ne.symm noFeed, ih.1⟩, ih.2⟩

/-- The lines of a text, with a line feed after each. -/
theorem flatMap_splitChars (text : List Char) :
    (splitChars text).flatMap (· ++ ['\n']) = ended (feedsOnly text) := by
  fun_induction splitChars text with
  | case1 => rfl
  | case2 rest ih => simp [feedsOnly, ih, ended_feed]
  | case3 rest ih => simp [feedsOnly, ih, ended_feed]
  | case4 c rest noFeed noPair none ih =>
    obtain rfl := splitChars_eq_nil.mp none
    simp [feedsOnly, ended, show c ≠ '\n' from noFeed]
  | case5 c rest noFeed noPair line more lines ih =>
    have some : rest ≠ [] := by
      rintro rfl
      cases lines
    rw [feedsOnly, ended_cons c (mt feedsOnly_eq_nil.mp some), ← ih, lines]
    · rfl
    · exact noPair

theorem not_mem_feed_splitLines (body : String) :
    ∀ line ∈ splitLines body, '\n' ∉ line.toList := by
  intro line member
  obtain ⟨chars, inside, rfl⟩ := List.mem_map.mp member
  rw [String.toList_ofList]
  exact not_mem_feed_splitChars _ chars inside

theorem toList_unlines (lines : List String) :
    (unlines lines).toList = lines.flatMap fun line => line.toList ++ ['\n'] := by
  induction lines with
  | nil => rfl
  | cons line lines ih => simp [toList_unlines_cons, ih]

/-- The lines of a body give the body with line feeds alone, one after every line. -/
theorem toList_unlines_splitLines (body : String) :
    (unlines (splitLines body)).toList = ended (feedsOnly body.toList) := by
  rw [toList_unlines, splitLines, List.flatMap_map, ← flatMap_splitChars]
  simp

/-! ### Functions taken apart -/

section Wrapped

variable (dialect : Dialect) (body : String)

theorem toList_unwrap_wrap :
    (unwrap (wrap dialect body)).toList = ended (feedsOnly body.toList) := by
  rw [wrap, unwrap_wrapLines dialect (not_mem_feed_splitLines body), toList_unlines_splitLines]

/-- A body comes back as it was when line feeds alone end its lines, the last one included. -/
theorem unwrap_wrap_eq_self_iff : unwrap (wrap dialect body) = body ↔
    (body = "" ∨ body.toList.getLast? = some '\n') ∧ ¬['\r', '\n'] <:+: body.toList := by
  rw [← String.toList_inj, toList_unwrap_wrap, ended_feedsOnly_eq_self_iff,
    String.toList_eq_nil_iff]

theorem innerLines_wrap : innerLines (wrap dialect body) = (splitLines body).map bodyLine :=
  innerLines_wrapLines dialect (not_mem_feed_splitLines body)

/-- What is not empty inside a function is moved by two blanks. -/
theorem blanks_prefix_innerLines {line : String} (member : line ∈ innerLines (wrap dialect body))
    (some : line ≠ "") : [' ', ' '] <+: line.toList := by
  rw [innerLines_wrap] at member
  obtain ⟨line, -, rfl⟩ := List.mem_map.mp member
  exact blanks_prefix_bodyLine (mt bodyLine_eq_empty.mpr some)

/-- The empty lines inside a function are those of its body. -/
theorem innerLines_eq_empty_iff (k : ℕ) :
    (innerLines (wrap dialect body))[k]? = some "" ↔ (splitLines body)[k]? = some "" := by
  simp only [innerLines_wrap, List.getElem?_map, Option.map_eq_some_iff, bodyLine_eq_empty,
    exists_eq_right]

/-- The text of the script is inside the source. -/
theorem unwrap_source (function : CurveFunction Float) :
    unwrap (function.source dialect) = text dialect function.script := by
  have oneLine := List.all_eq_true.mp (function.isOneLine_script numberText_plain dialect)
  rw [function.source_eq_wrapLines, text]
  exact unwrap_wrapLines dialect fun line member => not_mem_feed (oneLine line member)

end Wrapped

/-- **Wrapping loses nothing** but the carriage returns right before line feeds and a missing line
feed at the end: the body comes back with line feeds alone, one after every line, and just so when
it was written that way. Every line inside the function that is not empty begins with two blanks,
and the empty ones are those of the body. The source of a compiled curve is such a function, and
inside it is the text of the script. -/
theorem unwrap_wrap (dialect : Dialect) (body : String) :
    (unwrap (wrap dialect body)).toList = ended (feedsOnly body.toList) ∧
    (unwrap (wrap dialect body) = body ↔
      (body = "" ∨ body.toList.getLast? = some '\n') ∧ ¬['\r', '\n'] <:+: body.toList) ∧
    (∀ line ∈ innerLines (wrap dialect body), line ≠ "" → [' ', ' '] <+: line.toList) ∧
    (∀ k : ℕ, (innerLines (wrap dialect body))[k]? = some "" ↔ (splitLines body)[k]? = some "") ∧
    ∀ function : CurveFunction Float,
      function.source dialect = wrap dialect (text dialect function.script) ∧
        unwrap (function.source dialect) = text dialect function.script :=
  ⟨toList_unwrap_wrap dialect body, unwrap_wrap_eq_self_iff dialect body,
    fun _ member some => blanks_prefix_innerLines dialect body member some,
    innerLines_eq_empty_iff dialect body,
    fun function => ⟨function.source_eq_wrap numberText_plain dialect,
      unwrap_source dialect function⟩⟩

/-- A body with an empty line, a line of blanks and a line that is indented. -/
def spacedBody : String := "if (t < 0)\n  return 0;\n\n  \nreturn t;\n"

/-- The spaced body comes back, its line of blanks is not empty inside the function, and of two
carriage returns before a line feed one is lost. -/
theorem unwrap_wrap_spaced :
    (spacedBody.toList.getLast? = some '\n' ∧ ¬['\r', '\n'] <:+: spacedBody.toList) ∧
      unwrap (wrap .typed spacedBody) = spacedBody ∧
      ("    " ∈ innerLines (wrap .typed spacedBody) ∧ "    " ≠ "" ∧
        [' ', ' '] <+: "    ".toList) ∧
      (unwrap (wrap .untyped "t;\r\r\n\r\nt;\r")).toList = "t;\r\n\nt;\r\n".toList := by
  have isEnded : spacedBody.toList.getLast? = some '\n' := by decide
  have noPair : ¬['\r', '\n'] <:+: spacedBody.toList := by decide
  have inside : "    " ∈ innerLines (wrap .typed spacedBody) := by decide +kernel
  have some : "    " ≠ "" := by decide
  obtain ⟨-, same, blanks, -⟩ := unwrap_wrap .typed spacedBody
  obtain ⟨carried, -⟩ := unwrap_wrap .untyped "t;\r\r\n\r\nt;\r"
  exact ⟨⟨isEnded, noPair⟩, same.mpr ⟨.inr isEnded, noPair⟩,
    ⟨inside, some, blanks _ inside some⟩, carried.trans (by decide)⟩

end Easing.Script
