/-
**The command: compile a snapshot and report.**

The settings come from a file or are the default ones, with the options of the command line on top.
The path comes from a snapshot or is the diagonal. Files are given as a function from names to
texts, so that everything here is computed and nothing is done.

* `Arguments.settings`: the settings that are in force.
* `Arguments.job`: the path and the options of the compile.
* `Arguments.execute`: the report.
* `CommandError.messages`, `CommandError.cause?`: what is wrong, in words, and the cause behind the
  last message when it lies in a file.
-/
import Easing.Command.Arguments
import Easing.Settings.File
import Easing.Path.Reading
import Easing.Report

namespace Easing

/-- Why a file cannot be read. -/
inductive FileFault where
  | notFound
  | isDirectory
  | otherwise
deriving DecidableEq

/-- The texts of files by name. -/
abbrev Files := String → Except FileFault String

/-- Why the command fails. -/
inductive CommandError where
  | arguments (error : ArgumentError)
  | unreadableSettings (name : String) (fault : FileFault)
  | badSettings (name : String) (error : SettingsError)
  | unreadableSnapshot (name : String) (fault : FileFault)
  | badSnapshot (name : String) (problem : Json.Problem)
  | compile (error : CurveError Float)

/-- A cause that has no words of its own here. -/
inductive Cause where
  | file (fault : FileFault)
  | settingsText
  | snapshotText (problem : Json.Problem)

/-- The messages of a settings error, the outermost first. -/
def SettingsError.messages : SettingsError → List String
  | .unreadable => ["Failed to parse editor settings"]
  | .badDomain domain => ["domain must be a positive number, got " ++ Numeral.plain domain]

/-- The cause behind the messages of a settings error. -/
def SettingsError.cause? : SettingsError → Option Cause
  | .unreadable => some .settingsText
  | .badDomain _ => none

namespace CommandError

/-- The messages of an error, the outermost first. -/
def messages : CommandError → List String
  | .arguments error => error.messages
  | .unreadableSettings name _ => ["Failed to read settings file " ++ name]
  | .badSettings name error => ("Invalid settings in " ++ name) :: error.messages
  | .unreadableSnapshot name _ => ["Failed to read path snapshot " ++ name]
  | .badSnapshot name _ => ["Failed to parse path snapshot " ++ name]
  | .compile error => ["Failed to compile path", error.message]

/-- The cause behind the messages. -/
def cause? : CommandError → Option Cause
  | .arguments _ => none
  | .unreadableSettings _ fault => some (.file fault)
  | .badSettings _ error => error.cause?
  | .unreadableSnapshot _ fault => some (.file fault)
  | .badSnapshot _ problem => some (.snapshotText problem)
  | .compile _ => none

end CommandError

namespace Arguments

/-- The settings of a file, or the default ones. -/
def baseSettings (arguments : Arguments) (files : Files) :
    Except CommandError (Settings Float) :=
  match arguments.config with
  | .none => .ok Settings.default
  | some name =>
    match files name with
    | .error fault => .error (.unreadableSettings name fault)
    | .ok text => (Settings.ofText text).mapError (.badSettings name)

/-- The options of a compile with those of the command line on top. -/
def override (arguments : Arguments) (options : CompileOptions) : CompileOptions where
  useSampling := options.useSampling || arguments.sampled
  emitTypedSource := options.emitTypedSource && !arguments.noTyped
  precision := arguments.precision.getD options.precision

/-- The settings that are in force. -/
def settings (arguments : Arguments) (files : Files) : Except CommandError (Settings Float) :=
  (arguments.baseSettings files).map fun settings =>
    { settings with compile := arguments.override settings.compile }

/-- The path of the snapshot, or the diagonal of the domain. -/
def loadPath (arguments : Arguments) (files : Files) (domain : Float) :
    Except CommandError (Path Float) :=
  match arguments.path with
  | .none => .ok (Path.diagonal IdSupply.initial domain).1
  | some name =>
    match files name with
    | .error fault => .error (.unreadableSnapshot name fault)
    | .ok text =>
      match Path.restore Json.library IdSupply.initial text domain with
      | .error problem => .error (.badSnapshot name problem)
      | .ok (path, _) => .ok path

/-- The path and the options of the compile. -/
def job (arguments : Arguments) (files : Files) :
    Except CommandError (Path Float × CompileOptions) := do
  let settings ← arguments.settings files
  let path ← arguments.loadPath files settings.domain
  return (path, settings.compile)

/-- The function that is asked for. -/
def compiled (arguments : Arguments) (files : Files) : Except CommandError (Compiled Float) := do
  let (path, options) ← arguments.job files
  (compilePath path options).mapError .compile

/-- The report, given the text of the duration. -/
def execute (arguments : Arguments) (files : Files) (duration : String) :
    Except CommandError String :=
  (arguments.compiled files).map fun compiled => Report.text compiled duration

end Arguments

/-- What the program does. -/
structure Outcome where
  code : Nat
  output : String

/-- The whole program: its exit code and what it prints. A failure prints nothing there. -/
def runProgram (arguments : List String) (files : Files) (duration : String) : Outcome :=
  match Arguments.parse arguments with
  | .error _ => ⟨1, ""⟩
  | .ok arguments =>
    match arguments.execute files duration with
    | .error _ => ⟨1, ""⟩
    | .ok report => ⟨0, report⟩

end Easing
