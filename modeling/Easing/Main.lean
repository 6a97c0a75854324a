/-
**The program.**

Files are read, the clock is read before and after the compile, and the report is printed. What is
wrong is printed as a chain of messages.
-/
import Easing.Command.Run

namespace Easing

/-- Reads a file. -/
def readFile (name : String) : IO (Except FileFault String) := do
  try
    return .ok (← IO.FS.readFile name)
  catch
    | .noFileOrDirectory .. => return .error .notFound
    | .inappropriateType .. => return .error .isDirectory
    | _ => return .error .otherwise

/-- Reads the files that are named. -/
def readFiles (names : List String) : IO Files := do
  let contents ← names.mapM fun name => return (name, ← readFile name)
  return fun name =>
    match contents.find? fun entry => entry.1 == name with
    | some entry => entry.2
    | none => .error .notFound

/-- The words for a cause. -/
def Cause.message : Cause → String
  | .file .notFound => "No such file or directory"
  | .file .isDirectory => "Is a directory"
  | .file .otherwise => "The file cannot be read"
  | .settingsText => "The text is not of the form of settings"
  | .snapshotText (.mismatch mismatch) => mismatch.message
  | .snapshotText (.fault .ended) => "The text ends too early"
  | .snapshotText (.fault .malformed) => "The text is not JSON"

/-- Prints what is wrong, the outermost message first. -/
def printError (error : CommandError) : IO Unit := do
  let causes := (error.cause?.map Cause.message).toList
  match error.messages ++ causes with
  | [] => IO.eprintln "Error"
  | first :: rest =>
    IO.eprintln ("Error: " ++ first)
    if !rest.isEmpty then
      IO.eprintln "\nCaused by:"
      for message in rest do
        IO.eprintln ("    " ++ message)

/-- Compiles with the clock running, and prints the report. -/
def runArguments (arguments : Arguments) : IO (Except CommandError Unit) := do
  let files ← readFiles (arguments.config.toList ++ arguments.path.toList)
  let begun ← IO.monoNanosNow
  match arguments.compiled files with
  | .error error => return .error error
  | .ok compiled =>
    let ended ← IO.monoNanosNow
    IO.print (Report.text compiled (Report.durationText (ended - begun)))
    return .ok ()

end Easing

open Easing in
/-- Runs the program on its arguments. -/
def main (arguments : List String) : IO UInt32 := do
  let result ← match Arguments.parse arguments with
    | .error error => pure (.error (CommandError.arguments error))
    | .ok arguments => runArguments arguments
  match result with
  | .ok () => return 0
  | .error error =>
    printError error
    return 1
