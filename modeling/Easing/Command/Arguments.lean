/-
**The command line.**

An argument list is read from left to right, an option with its value at a time. The first
argument that does not fit is the error. The last value of an option counts; a snapshot is given at
most once.

* `Arguments.parse`: the arguments as a record.
* `ArgumentError.messages`: the wording of what is wrong.
-/

namespace Easing

/-- What the command line asks for. -/
structure Arguments where
  /-- The file of the snapshot. -/
  path : Option String
  /-- The file of the settings. -/
  config : Option String
  sampled : Bool
  precision : Option Nat
  noTyped : Bool
deriving DecidableEq

/-- Why a text is not a number of sixty-four bits. -/
inductive NumberFault where
  | empty
  | badDigit
  | tooLarge
deriving DecidableEq

/-- Why a command line is refused. -/
inductive ArgumentError where
  | missingFile
  | missingNumber
  | badPrecision (text : String) (fault : NumberFault)
  | unknownOption (text : String)
  | secondPath
deriving DecidableEq

/-! ### Wording -/

/-- How the command is used. -/
def usage : String :=
  "Usage: curvesmith [PATH.json] [--config FILE.toml] [--sampled] [--precision N] [--no-typed]"

/-- The wording of a number fault. -/
def NumberFault.message : NumberFault → String
  | .empty => "cannot parse integer from empty string"
  | .badDigit => "invalid digit found in string"
  | .tooLarge => "number too large to fit in target type"

/-- The messages of an error, the outermost first. -/
def ArgumentError.messages : ArgumentError → List String
  | .missingFile => ["--config needs a file"]
  | .missingNumber => ["--precision needs a number"]
  | .badPrecision text fault => ["Invalid precision '" ++ text ++ "'", fault.message]
  | .unknownOption text => ["Unknown option " ++ text ++ "\n" ++ usage]
  | .secondPath => ["Only one path snapshot can be given\n" ++ usage]

/-! ### Numbers -/

/-- Reads digits after the ones that gave `n`. The first character that does not fit decides. -/
def readDigits (n : Nat) : List Char → Except NumberFault Nat
  | [] => .ok n
  | c :: rest =>
    if c.isDigit then
      let next := 10 * n + (c.toNat - '0'.toNat)
      if next < Nat.pow 2 64 then readDigits next rest else .error .tooLarge
    else .error .badDigit

/-- Reads a number of sixty-four bits; a plus sign may come before it. -/
def readNumber (text : String) : Except NumberFault Nat :=
  match text.toList with
  | [] => .error .empty
  | ['+'] => .error .badDigit
  | '+' :: rest => readDigits 0 rest
  | cs => readDigits 0 cs

/-! ### Arguments -/

namespace Arguments

/-- Nothing is asked for. -/
def none : Arguments := ⟨.none, .none, false, .none, false⟩

/-- The argument has the form of an option. -/
def isOption (text : String) : Bool := text.toList.take 2 == ['-', '-']

/-- Reads arguments on top of those read so far. -/
def parseFrom (parsed : Arguments) : List String → Except ArgumentError Arguments
  | [] => .ok parsed
  | "--config" :: rest =>
    match rest with
    | [] => .error .missingFile
    | value :: rest => parseFrom { parsed with config := some value } rest
  | "--precision" :: rest =>
    match rest with
    | [] => .error .missingNumber
    | value :: rest =>
      match readNumber value with
      | .error fault => .error (.badPrecision value fault)
      | .ok n => parseFrom { parsed with precision := some n } rest
  | "--sampled" :: rest => parseFrom { parsed with sampled := true } rest
  | "--no-typed" :: rest => parseFrom { parsed with noTyped := true } rest
  | text :: rest =>
    if isOption text then .error (.unknownOption text)
    else if parsed.path.isSome then .error .secondPath
    else parseFrom { parsed with path := some text } rest

/-- Reads the arguments of a command line. -/
def parse (arguments : List String) : Except ArgumentError Arguments := parseFrom none arguments

end Arguments

end Easing
