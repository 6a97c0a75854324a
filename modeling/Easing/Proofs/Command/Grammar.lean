/-
**The grammar of the command line.**

The arguments are a row of groups: a flag, an option with its value, or the name of a snapshot,
which is given at most once. `Arguments.parse` accepts the rows of groups and nothing else, and what
it gives can be read off the groups. Where it refuses, the arguments start with groups, and what
comes after them is no group.

* `Denotes`, `NumberFault.Explains`: the numbers of sixty-four bits, and why a text is not one.
* `ArgumentGroup`, `WellGrouped`: the groups, and the rows of them that are accepted.
* `Arguments.ofGroups`: what a row of groups asks for.
* `Offends`: what cannot come after a row of groups, and the error for it.
* `Arguments.parse_grammar`: the parser accepts exactly the grammar.
-/
import Easing.Command.Arguments
import Easing.Proofs.Decimal.Text

namespace Easing

open Decimal

/-! ### Numbers -/

/-- The text behind a plus sign at its front, or the whole text when there is none. -/
def unsigned (text : String) : List Char :=
  match text.toList with
  | '+' :: rest => rest
  | cs => cs

/-- The text is a number of sixty-four bits: digits, with a plus sign before them or without. -/
structure Denotes (text : String) (n : ℕ) : Prop where
  digits : AllDigits (unsigned text)
  nonempty : unsigned text ≠ []
  value : ofDigits (unsigned text) = n
  bound : n < 2 ^ 64

/-- Why a text is not a number: there is nothing in it, or one comes to a character that is no digit
while the digits before it are not too large, or to where the digits are too large. -/
def NumberFault.Explains (text : String) : NumberFault → Prop
  | .empty => text = ""
  | .badDigit => text = "+" ∨ ∃ front c rest, unsigned text = front ++ c :: rest ∧
      AllDigits front ∧ ofDigits front < 2 ^ 64 ∧ c.isDigit = false
  | .tooLarge => ∃ front rest, unsigned text = front ++ rest ∧ AllDigits front ∧
      2 ^ 64 ≤ ofDigits front

theorem ofDigits_snoc (front : List Char) (c : Char) :
    ofDigits (front ++ [c]) = 10 * ofDigits front + (c.toNat - '0'.toNat) := by
  unfold ofDigits
  rw [List.foldl_append]
  rfl

theorem ofDigits_le_append (front back : List Char) :
    ofDigits front ≤ ofDigits (front ++ back) := by
  rw [ofDigits_append]
  exact (Nat.le_mul_of_pos_left _ (by positivity)).trans (Nat.le_add_right _ _)

/-- Digits are read on top of those before them until they are too large. -/
theorem readDigits_append {front back : List Char} (rest : List Char) (digits : AllDigits back)
    (small : ofDigits front < 2 ^ 64) :
    readDigits (ofDigits front) (back ++ rest) =
      if ofDigits (front ++ back) < 2 ^ 64 then readDigits (ofDigits (front ++ back)) rest
      else .error .tooLarge := by
  -- the digits read so far grow at their end
  induction back generalizing front with
  | nil => rw [List.append_nil, if_pos small, List.nil_append]
  | cons c back ih =>
    obtain ⟨digit, digits⟩ := List.forall_mem_cons.mp digits
    rw [List.cons_append, readDigits, if_pos digit, List.append_cons]
    show (if 10 * ofDigits front + (c.toNat - '0'.toNat) < 2 ^ 64 then _ else _) = _
    rw [← ofDigits_snoc]
    by_cases next : ofDigits (front ++ [c]) < 2 ^ 64
    · rw [if_pos next]
      exact ih digits next
    · have beyond := (not_lt.mp next).trans (ofDigits_le_append (front ++ [c]) back)
      rw [if_neg next, if_neg (not_lt.mpr beyond)]

/-- What is read from the first digit on. -/
theorem readDigits_front {front : List Char} (rest : List Char) (digits : AllDigits front) :
    readDigits 0 (front ++ rest) =
      if ofDigits front < 2 ^ 64 then readDigits (ofDigits front) rest else .error .tooLarge :=
  readDigits_append rest digits (show ofDigits [] < 2 ^ 64 by decide)

theorem unsigned_eq_nil_iff {text : String} : unsigned text = [] ↔ text = "" ∨ text = "+" := by
  constructor
  · intro none
    rw [← String.toList_inj, ← String.toList_inj]
    unfold unsigned at none
    split at none
    · next same =>
      rw [none] at same
      exact .inr same
    · exact .inl none
  · rintro (rfl | rfl) <;> rfl

theorem readNumber_eq {text : String} (some : unsigned text ≠ []) :
    readNumber text = readDigits 0 (unsigned text) := by
  unfold readNumber
  unfold unsigned at some ⊢
  generalize text.toList = cs at some
  split
  · exact absurd rfl some
  · exact absurd rfl some
  · rfl
  · next noSign =>
    split
    · exact absurd rfl (noSign _)
    · rfl

theorem readNumber_of_denotes {text : String} {n : ℕ} (denotes : Denotes text n) :
    readNumber text = .ok n := by
  have read := readDigits_front [] denotes.digits
  rw [List.append_nil, denotes.value, if_pos denotes.bound] at read
  rw [readNumber_eq denotes.nonempty, read]
  rfl

theorem readNumber_of_explains {text : String} {fault : NumberFault}
    (explains : fault.Explains text) : readNumber text = .error fault := by
  cases fault with
  | empty =>
    obtain rfl : text = "" := explains
    rfl
  | badDigit =>
    rcases explains with rfl | ⟨front, c, rest, split, digits, small, other⟩
    · rfl
    · have some : unsigned text ≠ [] :=
        split ▸ List.append_ne_nil_of_right_ne_nil front (List.cons_ne_nil c rest)
      rw [readNumber_eq some, split, readDigits_front _ digits, if_pos small, readDigits,
        if_neg (Bool.eq_false_iff.mp other)]
  | tooLarge =>
    obtain ⟨front, rest, split, digits, large⟩ := explains
    have some : unsigned text ≠ [] := by
      rw [split]
      rintro none
      obtain ⟨rfl, -⟩ := List.append_eq_nil_iff.mp none
      exact absurd large (by decide)
    rw [readNumber_eq some, split, readDigits_front _ digits, if_neg (not_lt.mpr large)]

/-- A text is a number, or there is a reason why it is none. -/
theorem exists_denotes_or_explains (text : String) :
    (∃ n, Denotes text n) ∨ ∃ fault : NumberFault, fault.Explains text := by
  by_cases some : unsigned text = []
  · rcases unsigned_eq_nil_iff.mp some with empty | sign
    · exact .inr ⟨.empty, empty⟩
    · exact .inr ⟨.badDigit, .inl sign⟩
  have digits : AllDigits ((unsigned text).takeWhile Char.isDigit) :=
    fun c member => List.mem_takeWhile_imp member
  have split := List.takeWhile_append_dropWhile (p := Char.isDigit) (l := unsigned text)
  have stops := List.head?_dropWhile_not Char.isDigit (unsigned text)
  generalize (unsigned text).takeWhile Char.isDigit = front at digits split
  generalize (unsigned text).dropWhile Char.isDigit = rest at split stops
  by_cases small : ofDigits front < 2 ^ 64
  · cases rest with
    | nil =>
      rw [List.append_nil] at split
      subst split
      exact .inl ⟨_, digits, some, rfl, small⟩
    | cons c rest => exact .inr ⟨.badDigit, .inr ⟨front, c, rest, split.symm, digits, small, stops⟩⟩
  · exact .inr ⟨.tooLarge, front, rest, split.symm, digits, not_lt.mp small⟩

/-- A number denotes itself as it is written. -/
theorem denotes_toString {n : ℕ} (bound : n < 2 ^ 64) : Denotes (toString n) n := by
  have digits : AllDigits (toString n).toList := toList_toString n ▸ allDigits_toDigits n
  have same : unsigned (toString n) = Nat.toDigits 10 n := by
    unfold unsigned
    split
    · next rest sign => exact absurd (digits '+' (sign ▸ List.mem_cons_self)) (by decide)
    · exact toList_toString n
  exact ⟨same ▸ allDigits_toDigits n, same ▸ Nat.toDigits_ne_nil, same ▸ ofDigits_toDigits n, bound⟩

/-! ### Groups -/

/-- What belongs together on a command line. -/
inductive ArgumentGroup where
  | sampled
  | noTyped
  | config (file : String)
  | precision (text : String) (n : ℕ)
  | path (file : String)
deriving DecidableEq

/-- The argument starts like an option. -/
def LooksLikeOption (text : String) : Prop := "--".toList <+: text.toList

instance (text : String) : Decidable (LooksLikeOption text) :=
  inferInstanceAs (Decidable (_ <+: _))

namespace ArgumentGroup

/-- The arguments of a group. -/
def words : ArgumentGroup → List String
  | .sampled => ["--sampled"]
  | .noTyped => ["--no-typed"]
  | .config file => ["--config", file]
  | .precision text _ => ["--precision", text]
  | .path file => [file]

/-- The texts of a group are what they have to be. The file of `--config` can be any text. -/
def Fits : ArgumentGroup → Prop
  | .precision text n => Denotes text n
  | .path file => ¬LooksLikeOption file
  | _ => True

def path? : ArgumentGroup → Option String
  | .path file => some file
  | _ => none

def config? : ArgumentGroup → Option String
  | .config file => some file
  | _ => none

def precision? : ArgumentGroup → Option ℕ
  | .precision _ n => some n
  | _ => none

end ArgumentGroup

/-- A row of groups that fit, with one snapshot at most. -/
structure WellGrouped (groups : List ArgumentGroup) : Prop where
  fits : ∀ group ∈ groups, group.Fits
  onePath : (groups.filterMap ArgumentGroup.path?).length ≤ 1

namespace Arguments

/-- What the groups ask for: the snapshot, the last file of settings, the last precision, and the
flags that occur. -/
def ofGroups (groups : List ArgumentGroup) : Arguments where
  path := (groups.filterMap ArgumentGroup.path?).head?
  config := (groups.filterMap ArgumentGroup.config?).getLast?
  sampled := decide (.sampled ∈ groups)
  precision := (groups.filterMap ArgumentGroup.precision?).getLast?
  noTyped := decide (.noTyped ∈ groups)

/-- What is asked for with one more group. -/
def give (parsed : Arguments) : ArgumentGroup → Arguments
  | .sampled => { parsed with sampled := true }
  | .noTyped => { parsed with noTyped := true }
  | .config file => { parsed with config := some file }
  | .precision _ n => { parsed with precision := some n }
  | .path file => { parsed with path := parsed.path.or (some file) }

theorem ofGroups_snoc (groups : List ArgumentGroup) (group : ArgumentGroup) :
    ofGroups (groups ++ [group]) = (ofGroups groups).give group := by
  cases group <;>
    simp [ofGroups, give, ArgumentGroup.path?, ArgumentGroup.config?, ArgumentGroup.precision?,
      List.filterMap_append]

theorem isOption_iff {text : String} : isOption text = true ↔ LooksLikeOption text := by
  unfold isOption LooksLikeOption
  rw [List.prefix_iff_eq_take, beq_iff_eq, eq_comm]
  rfl

end Arguments

/-! ### What cannot come next -/

/-- The options there are. -/
def optionNames : List String := ["--config", "--precision", "--sampled", "--no-typed"]

/-- The arguments do not go on with a group, after groups that are in order, and this is the error
for it. -/
inductive Offends (groups : List ArgumentGroup) : List String → ArgumentError → Prop
  | missingFile : Offends groups ["--config"] .missingFile
  | missingNumber : Offends groups ["--precision"] .missingNumber
  | badPrecision {text : String} {fault : NumberFault} (rest : List String) :
      fault.Explains text →
        Offends groups ("--precision" :: text :: rest) (.badPrecision text fault)
  | unknownOption {text : String} (rest : List String) :
      LooksLikeOption text → text ∉ optionNames →
        Offends groups (text :: rest) (.unknownOption text)
  | secondPath {text : String} (rest : List String) :
      ¬LooksLikeOption text → groups.filterMap ArgumentGroup.path? ≠ [] →
        Offends groups (text :: rest) .secondPath

/-- All options look like options. -/
theorem not_mem_optionNames {text : String} (bare : ¬LooksLikeOption text) :
    text ∉ optionNames := by
  have all : ∀ option ∈ optionNames, LooksLikeOption option := by decide
  exact fun member => bare (all text member)

theorem WellGrouped.snoc {groups : List ArgumentGroup} {group : ArgumentGroup}
    (well : WellGrouped groups) (fits : group.Fits)
    (alone : group.path? ≠ none → groups.filterMap ArgumentGroup.path? = []) :
    WellGrouped (groups ++ [group]) := by
  refine ⟨fun other member => ?_, ?_⟩
  · rcases List.mem_append.mp member with member | member
    · exact well.fits other member
    · rw [List.mem_singleton.mp member]
      exact fits
  · rw [List.filterMap_append]
    cases path : group.path? with
    | none =>
      rw [List.filterMap_cons_none path, List.filterMap_nil, List.append_nil]
      exact well.onePath
    | some file =>
      rw [alone (path ▸ Option.some_ne_none file), List.filterMap_cons_some path]
      exact le_refl 1

theorem WellGrouped.of_snoc {groups : List ArgumentGroup} {group : ArgumentGroup}
    (well : WellGrouped (groups ++ [group])) :
    WellGrouped groups ∧ group.Fits ∧
      (group.path? ≠ none → groups.filterMap ArgumentGroup.path? = []) := by
  have one := well.onePath
  rw [List.filterMap_append, List.length_append] at one
  refine ⟨⟨fun other member => well.fits other (List.mem_append_left _ member), by omega⟩,
    well.fits group (List.mem_append_right _ (List.mem_singleton_self group)), fun isPath => ?_⟩
  obtain ⟨file, path⟩ := Option.ne_none_iff_exists'.mp isPath
  rw [List.filterMap_cons_some path, List.length_cons] at one
  exact List.length_eq_zero_iff.mp (by omega)

/-- The arguments go on with a group that fits there, or they offend. -/
theorem exists_group_or_offends (groups : List ArgumentGroup) {arguments : List String}
    (some : arguments ≠ []) :
    (∃ group rest, arguments = ArgumentGroup.words group ++ rest ∧ group.Fits ∧
      (group.path? ≠ none → groups.filterMap ArgumentGroup.path? = [])) ∨
        ∃ error, Offends groups arguments error := by
  obtain ⟨text, rest, rfl⟩ := List.exists_cons_of_ne_nil some
  by_cases known : text ∈ optionNames
  · simp only [optionNames, List.mem_cons, List.not_mem_nil, or_false] at known
    rcases known with rfl | rfl | rfl | rfl
    · cases rest with
      | nil => exact .inr ⟨_, .missingFile⟩
      | cons file rest => exact .inl ⟨.config file, rest, rfl, trivial, nofun⟩
    · cases rest with
      | nil => exact .inr ⟨_, .missingNumber⟩
      | cons text rest =>
        rcases exists_denotes_or_explains text with ⟨n, denotes⟩ | ⟨fault, explains⟩
        · exact .inl ⟨.precision text n, rest, rfl, denotes, nofun⟩
        · exact .inr ⟨_, .badPrecision rest explains⟩
    · exact .inl ⟨.sampled, rest, rfl, trivial, nofun⟩
    · exact .inl ⟨.noTyped, rest, rfl, trivial, nofun⟩
  · by_cases isOption : LooksLikeOption text
    · exact .inr ⟨_, .unknownOption rest isOption known⟩
    · by_cases first : groups.filterMap ArgumentGroup.path? = []
      · exact .inl ⟨.path text, rest, rfl, isOption, fun _ => first⟩
      · exact .inr ⟨_, .secondPath rest isOption first⟩

/-- Arguments start with groups that are in order, up to where they end or offend. -/
theorem exists_groups (arguments : List String) {before : List ArgumentGroup}
    (well : WellGrouped before) :
    ∃ groups rest, WellGrouped (before ++ groups) ∧
      arguments = groups.flatMap ArgumentGroup.words ++ rest ∧
      (rest = [] ∨ ∃ error, Offends (before ++ groups) rest error) := by
  -- every group takes some of the arguments
  induction size : arguments.length using Nat.strong_induction_on generalizing arguments before with
  | _ size ih =>
    subst size
    by_cases none : arguments = []
    · exact ⟨[], [], by rwa [List.append_nil], none, .inl rfl⟩
    rcases exists_group_or_offends before none with ⟨group, rest, rfl, fits, alone⟩ | offends
    · have shorter : rest.length < (group.words ++ rest).length := by
        rw [List.length_append]
        cases group <;> simp [ArgumentGroup.words]
      obtain ⟨groups, rest', well', rfl, ends⟩ := ih _ shorter rest (well.snoc fits alone) rfl
      rw [← List.append_cons] at well' ends
      exact ⟨group :: groups, rest', well', by rw [List.flatMap_cons, List.append_assoc], ends⟩
    · exact ⟨[], arguments, by rwa [List.append_nil], rfl, .inr (by rwa [List.append_nil])⟩

namespace Arguments

/-! ### The parser -/

theorem parseFrom_bare (parsed : Arguments) {text : String} (rest : List String)
    (unknown : text ∉ optionNames) :
    parseFrom parsed (text :: rest) =
      if isOption text then .error (.unknownOption text)
      else if parsed.path.isSome then .error .secondPath
      else parseFrom { parsed with path := some text } rest := by
  simp only [optionNames, List.mem_cons, List.not_mem_nil, or_false, not_or] at unknown
  obtain ⟨config, precision, sampled, noTyped⟩ := unknown
  rw [parseFrom]
  all_goals assumption

/-- A group is read as a whole. -/
theorem parseFrom_words {parsed : Arguments} {group : ArgumentGroup} (rest : List String)
    (fits : group.Fits) (alone : group.path? ≠ .none → parsed.path = .none) :
    parseFrom parsed (group.words ++ rest) = parseFrom (parsed.give group) rest := by
  cases group with
  | sampled => rw [ArgumentGroup.words, List.singleton_append, parseFrom, give]
  | noTyped => rw [ArgumentGroup.words, List.singleton_append, parseFrom, give]
  | config file =>
    show parseFrom parsed ("--config" :: file :: rest) = _
    rw [parseFrom, give]
  | precision text n =>
    show parseFrom parsed ("--precision" :: text :: rest) = _
    rw [parseFrom]
    simp only [readNumber_of_denotes fits]
    rfl
  | path file =>
    have first := alone (Option.some_ne_none file)
    rw [ArgumentGroup.words, List.singleton_append, parseFrom_bare _ _ (not_mem_optionNames fits),
      if_neg (mt isOption_iff.mp fits), first]
    simp [give, first]

/-- Groups that are in order are read one after the other. -/
theorem parse_words {groups : List ArgumentGroup} (rest : List String)
    (well : WellGrouped groups) :
    parse (groups.flatMap ArgumentGroup.words ++ rest) = parseFrom (ofGroups groups) rest := by
  induction groups using List.reverseRecOn generalizing rest with
  | nil => rfl
  | append_singleton groups group ih =>
    obtain ⟨well, fits, alone⟩ := well.of_snoc
    have alone' : group.path? ≠ .none → (ofGroups groups).path = .none := fun isPath =>
      List.head?_eq_none_iff.mpr (alone isPath)
    rw [List.flatMap_append, List.flatMap_singleton, List.append_assoc, ih _ well,
      parseFrom_words rest fits alone', ofGroups_snoc]

/-- What offends is refused with its error. -/
theorem parseFrom_of_offends {groups : List ArgumentGroup} {rest : List String}
    {error : ArgumentError} (offends : Offends groups rest error) :
    parseFrom (ofGroups groups) rest = .error error := by
  cases offends with
  | missingFile => rfl
  | missingNumber => rfl
  | badPrecision rest explains =>
    rw [parseFrom]
    simp only [readNumber_of_explains explains]
  | unknownOption rest isOption unknown =>
    rw [parseFrom_bare _ _ unknown, if_pos (isOption_iff.mpr isOption)]
  | secondPath rest bare second =>
    have given : (ofGroups groups).path.isSome := List.isSome_head?.mpr second
    rw [parseFrom_bare _ _ (not_mem_optionNames bare), if_neg (mt isOption_iff.mp bare),
      if_pos given]

/-! ### Writing a record down -/

/-- The groups of a record, with a text for its precision. -/
def groups (value : Arguments) (text : String) : List ArgumentGroup :=
  (value.path.map ArgumentGroup.path).toList ++ (value.config.map ArgumentGroup.config).toList ++
    (value.precision.map (ArgumentGroup.precision text)).toList ++
    (if value.sampled then [ArgumentGroup.sampled] else []) ++
    (if value.noTyped then [ArgumentGroup.noTyped] else [])

section Groups

variable (value : Arguments) (text : String)

theorem paths_groups : (value.groups text).filterMap ArgumentGroup.path? = value.path.toList := by
  rcases value with ⟨_ | _, _ | _, _ | _, _ | _, _ | _⟩ <;> rfl

theorem configs_groups :
    (value.groups text).filterMap ArgumentGroup.config? = value.config.toList := by
  rcases value with ⟨_ | _, _ | _, _ | _, _ | _, _ | _⟩ <;> rfl

theorem precisions_groups :
    (value.groups text).filterMap ArgumentGroup.precision? = value.precision.toList := by
  rcases value with ⟨_ | _, _ | _, _ | _, _ | _, _ | _⟩ <;> rfl

theorem mem_groups {value : Arguments} {text : String} {group : ArgumentGroup} :
    group ∈ value.groups text ↔
      match group with
      | .sampled => value.sampled = true
      | .noTyped => value.noTyped = true
      | .config file => value.config = some file
      | .precision text' n => value.precision = some n ∧ text = text'
      | .path file => value.path = some file := by
  cases group <;> simp [groups]

end Groups

/-- One entry at most is the first and the last. -/
theorem ends_of_perm {β : Type} {entries : List β} {entry : Option β}
    (perm : entries.Perm entry.toList) : entries.head? = entry ∧ entries.getLast? = entry := by
  cases entry with
  | none =>
    obtain rfl := List.perm_nil.mp perm
    exact ⟨rfl, rfl⟩
  | some entry =>
    obtain rfl := List.perm_singleton.mp perm
    exact ⟨rfl, rfl⟩

/-- The groups of a record, in any order, ask for what the record asks for. -/
theorem ofGroups_of_perm {value : Arguments} {text : String} {shuffled : List ArgumentGroup}
    (perm : shuffled.Perm (value.groups text)) : ofGroups shuffled = value := by
  have path := ends_of_perm (paths_groups value text ▸ perm.filterMap ArgumentGroup.path?)
  have config := ends_of_perm (configs_groups value text ▸ perm.filterMap ArgumentGroup.config?)
  have precision :=
    ends_of_perm (precisions_groups value text ▸ perm.filterMap ArgumentGroup.precision?)
  have sampled : decide (.sampled ∈ shuffled) = value.sampled :=
    Bool.eq_iff_iff.mpr (decide_eq_true_iff.trans (perm.mem_iff.trans mem_groups))
  have noTyped : decide (.noTyped ∈ shuffled) = value.noTyped :=
    Bool.eq_iff_iff.mpr (decide_eq_true_iff.trans (perm.mem_iff.trans mem_groups))
  unfold ofGroups
  rw [path.1, config.2, precision.2, sampled, noTyped]

theorem wellGrouped_of_perm {value : Arguments} {text : String} {shuffled : List ArgumentGroup}
    (bare : ∀ file ∈ value.path, ¬LooksLikeOption file)
    (denotes : ∀ n ∈ value.precision, Denotes text n)
    (perm : shuffled.Perm (value.groups text)) : WellGrouped shuffled := by
  refine ⟨fun group member => ?_, ?_⟩
  · have isGroup := mem_groups.mp (perm.mem_iff.mp member)
    cases group with
    | path file => exact bare file isGroup
    | precision text' n => exact isGroup.2 ▸ denotes n isGroup.1
    | sampled | noTyped | config => trivial
  · rw [(perm.filterMap ArgumentGroup.path?).length_eq, paths_groups]
    cases value.path <;> simp

/-! ### The grammar -/

section Parsing

variable {groups : List ArgumentGroup} {arguments rest : List String}

theorem parse_groups (well : WellGrouped groups) :
    parse (groups.flatMap ArgumentGroup.words) = .ok (ofGroups groups) := by
  rw [← List.append_nil (groups.flatMap _), parse_words [] well]
  rfl

theorem parse_of_offends {error : ArgumentError} (well : WellGrouped groups)
    (offends : Offends groups rest error) :
    parse (groups.flatMap ArgumentGroup.words ++ rest) = .error error := by
  rw [parse_words rest well, parseFrom_of_offends offends]

/-- All arguments start with groups that fit, up to their end or up to what offends. -/
theorem exists_wellGrouped (arguments : List String) : ∃ groups rest, WellGrouped groups ∧
    arguments = groups.flatMap ArgumentGroup.words ++ rest ∧
      (rest = [] ∨ ∃ error, Offends groups rest error) := by
  have nothing : WellGrouped [] := ⟨nofun, Nat.zero_le 1⟩
  exact exists_groups arguments nothing

/-- A record is given for groups that fit, and for nothing else. -/
theorem parse_eq_ok_iff (parsed : Arguments) : parse arguments = .ok parsed ↔
    ∃ groups, WellGrouped groups ∧ arguments = groups.flatMap ArgumentGroup.words ∧
      parsed = ofGroups groups := by
  constructor
  · intro ok
    obtain ⟨groups, rest, well, rfl, rfl | ⟨error, offends⟩⟩ := exists_wellGrouped arguments
    · rw [List.append_nil] at ok ⊢
      rw [parse_groups well] at ok
      exact ⟨groups, well, rfl, (Except.ok.inj ok).symm⟩
    · rw [parse_of_offends well offends] at ok
      cases ok
  · rintro ⟨groups, well, rfl, rfl⟩
    exact parse_groups well

/-- An error is given for what offends after groups that fit. -/
theorem parse_eq_error_iff (error : ArgumentError) : parse arguments = .error error ↔
    ∃ groups rest, WellGrouped groups ∧
      arguments = groups.flatMap ArgumentGroup.words ++ rest ∧ Offends groups rest error := by
  constructor
  · intro failed
    obtain ⟨groups, rest, well, rfl, rfl | ⟨other, offends⟩⟩ := exists_wellGrouped arguments
    · rw [List.append_nil, parse_groups well] at failed
      cases failed
    · rw [parse_of_offends well offends] at failed
      exact ⟨groups, rest, well, rfl, Except.error.inj failed ▸ offends⟩
  · rintro ⟨groups, rest, well, rfl, offends⟩
    exact parse_of_offends well offends

/-- A record is read back from its parts in any order. -/
theorem parse_of_perm {value : Arguments} {text : String} {shuffled : List ArgumentGroup}
    (bare : ∀ file ∈ value.path, ¬LooksLikeOption file)
    (denotes : ∀ n ∈ value.precision, Denotes text n)
    (perm : shuffled.Perm (value.groups text)) :
    parse (shuffled.flatMap ArgumentGroup.words) = .ok value := by
  rw [parse_groups (wellGrouped_of_perm bare denotes perm), ofGroups_of_perm perm]

end Parsing

/-- **The parser accepts exactly the grammar.** It gives a record if and only if the arguments are
the words of groups that fit, with one snapshot at most, and then it is the record of the groups:
the snapshot, the last file of settings, the last precision, and the flags that occur. It gives an
error if and only if the arguments start with such groups and what comes then offends in the way the
error says. So a record whose snapshot does not look like an option is read back from its parts in
any order, its precision written in any way, as in decimal digits. -/
theorem parse_grammar :
    (∀ arguments parsed, parse arguments = .ok parsed ↔
      ∃ groups, WellGrouped groups ∧ arguments = groups.flatMap ArgumentGroup.words ∧
        parsed = ofGroups groups) ∧
    (∀ arguments error, parse arguments = .error error ↔
      ∃ groups rest, WellGrouped groups ∧
        arguments = groups.flatMap ArgumentGroup.words ++ rest ∧ Offends groups rest error) ∧
    (∀ (value : Arguments) (text : String), (∀ file ∈ value.path, ¬LooksLikeOption file) →
      (∀ n ∈ value.precision, Denotes text n) →
        ∀ shuffled : List ArgumentGroup, shuffled.Perm (value.groups text) →
          parse (shuffled.flatMap ArgumentGroup.words) = .ok value) ∧
    ∀ n < 2 ^ 64, Denotes (toString n) n := by
  refine ⟨fun arguments parsed => parse_eq_ok_iff parsed,
    fun arguments error => parse_eq_error_iff error, ?_, fun n bound => denotes_toString bound⟩
  exact fun value text bare denotes shuffled perm => parse_of_perm bare denotes perm

/-- A record read back from its parts in another order, with a plus sign before its precision and a
flag as the name of a file. -/
theorem parse_shuffled :
    ¬LooksLikeOption "a.json" ∧ Denotes "+7" 7 ∧
      parse ["--precision", "+7", "--no-typed", "a.json", "--config", "--sampled"] =
        .ok ⟨some "a.json", some "--sampled", false, some 7, true⟩ := by
  have bare : ¬LooksLikeOption "a.json" := by decide
  have seven : Denotes "+7" 7 := ⟨by simp [unsigned, AllDigits], by decide, rfl, by norm_num⟩
  refine ⟨bare, seven, ?_⟩
  exact parse_grammar.2.2.1 ⟨some "a.json", some "--sampled", false, some 7, true⟩ "+7"
    (by rintro _ ⟨⟩; exact bare) (by rintro _ ⟨⟩; exact seven)
    [.precision "+7" 7, .noTyped, .path "a.json", .config "--sampled"] (by decide)

end Arguments

end Easing
