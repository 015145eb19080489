import Machine8086.CommandLine.Outcome

/-!
# The program

Gives the command line access to the file system and prints its outcome.
-/

namespace Machine8086.Main

/-- The reason of an input or output error, with the system's error number where it is known. -/
def reason : IO.Error → String
  | .noFileOrDirectory _ code details
  | .permissionDenied _ code details
  | .inappropriateType _ code details
  | .invalidArgument _ code details
  | .resourceExhausted _ code details => details ++ " (os error " ++ toString code ++ ")"
  | e => toString e

/-- An action with the reason of its error as text. -/
def attempt {α : Type} (action : IO α) : IO (Except String α) := do
  match ← action.toBaseIO with
  | .ok a => return .ok a
  | .error e => return .error (reason e)

/-- The files of the system. -/
def files : CommandLine.Files IO where
  append path := attempt do
    let _ ← IO.FS.Handle.mk path .append
  read path := attempt do
    return (← (← IO.FS.Handle.mk path .read).readBinToEnd).toList
  create path := attempt do
    let _ ← IO.FS.Handle.mk path .write

/-- Appends the log lines to the log file. -/
def writeLog (path : String) (lines : Array String) : IO Unit := do
  let handle ← IO.FS.Handle.mk path .append
  handle.putStr (CommandLine.linesText lines)

/-- The log file that the arguments name. -/
def logFile? (arguments : List String) : Option String :=
  match CommandLine.Request.ofArguments arguments with
  | .ok (.disasm options _) => options.logFile
  | .ok (.sim options _) => options.logFile
  | _ => none

end Machine8086.Main

/-- Runs the command line. -/
def main (arguments : List String) : IO UInt32 := do
  let outcome ← Machine8086.CommandLine.run Machine8086.Main.files arguments
  IO.print outcome.stdout
  IO.eprint outcome.stderr
  if let some (path, text) := outcome.output then IO.FS.writeFile path text
  if let some path := Machine8086.Main.logFile? arguments then
    unless outcome.logLines.isEmpty do Machine8086.Main.writeLog path outcome.logLines
  return UInt32.ofNat outcome.code
