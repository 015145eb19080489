import Machine8086.CommandLine.Arguments
import Machine8086.Session
import Machine8086.Summary

/-!
# What a command does

`Request.run` carries out a command line request and gives its output texts and exit code. Files are
reached through a `Files` record over any monad, so that the same definition serves the program and
a directory that is only described. The log level is checked first, then the log file is opened,
then the program is read and loaded, and only then is an output file made.
-/

namespace Machine8086.CommandLine

/-- Access to files. A refusal carries the reason as text. -/
structure Files (m : Type → Type) where
  /-- Opens a file for appending, making it if needed. -/
  append : String → m (Except String Unit)
  read : String → m (Except String (List UInt8))
  /-- Makes an empty file. -/
  create : String → m (Except String Unit)

/-- Text and exit code of a finished command. -/
structure Outcome where
  code : Nat := 0
  stdout : String := ""
  stderr : String := ""
  /-- The path and the content of the output file, if one was made. -/
  output : Option (String × String) := none
  /-- The lines for the log file, if one was opened. -/
  logLines : Array String := #[]
  deriving DecidableEq, Repr, Inhabited

/-- An error report: what failed and, where there is one, its cause. -/
structure Report where
  summary : String
  cause : Option String := none
  deriving DecidableEq, Repr

/-- The text of an error report. -/
def Report.text (r : Report) : String :=
  "Error: " ++ r.summary ++ "\n" ++
    match r.cause with
    | none => ""
    | some cause => "\nCaused by:\n    " ++ cause ++ "\n"

/-- The report of a failure; a listing error has the decoding error as its cause. -/
def Report.ofFailure (failure : Failure) : Report :=
  { summary := failure.message
    cause := match failure with
      | .write (.listing e) => some e.source.message
      | _ => none }

/-- Lines of text, each with its line end. -/
def linesText (lines : Array String) : String :=
  String.join (lines.toList.map (· ++ "\n"))

/-- The outcome of a command that wrote `stdout` and ends with an error report or none. -/
def Outcome.ofLog (log : Log) (stdout : String) (failure : Option Report) : Outcome :=
  { code := if failure.isSome then 1 else 0
    stdout
    stderr := linesText log.errorLines ++ (failure.map Report.text).getD ""
    logLines := log.file.getD #[] }

/-- The line that is printed for a step of a traced run; `total` counts the clocks up to it. -/
def traceLine (step : Step) (total : UInt64) : String :=
  let changes := " ".intercalate (step.changes.map RegisterChange.text)
  match step.clocks with
  | none => step.text ++ " ; " ++ changes ++ "\n"
  | some clocks =>
    step.text ++ " ; Clocks: +" ++ Numeral.decimal clocks ++ " = " ++
      Numeral.decimal total.toNat ++ " | " ++ changes ++ "\n"

/-- What a run has printed and logged so far. -/
structure Printed where
  stdout : String := ""
  clocks : UInt64 := 0
  log : Log

/-- Prints, if asked to, and logs a step. -/
def Printed.add (trace : Bool) (p : Printed) (step : Step) : Printed :=
  let clocks := p.clocks + UInt64.ofNat (step.clocks.getD 0)
  { stdout := if trace then p.stdout ++ traceLine step clocks else p.stdout
    clocks
    log := p.log.report step.events }

/-- The final state as it is printed. -/
def summaryText (json trace : Bool) (summary : RunSummary) : String :=
  if json then summary.json ++ "\n" else (if trace then "\n" else "") ++ summary.text

/-- Runs a loaded program. -/
def simulate (options : Options) (s : Simulator) (log : Log) : Outcome :=
  let config : RunConfig := ⟨options.estimate, options.stepLimit⟩
  let result := s.runWith config (Printed.add options.trace) { log }
  let log := result.report.log.report result.endEvents
  match result.outcome with
  | .ok summary =>
    .ofLog log (result.report.stdout ++ summaryText options.json options.trace summary) none
  | .error e => .ofLog log result.report.stdout (some (.ofFailure e))

/-- Disassembles a loaded program: log and text of the listing, and the error that cut it short. -/
def disassemble (s : Simulator) (log : Log) : Log × String × Option Report :=
  let listing := s.listing
  (log.report listing.events, listing.text,
    listing.failure.map fun e => .ofFailure (.write (.listing e)))

/-- The log at the start, or the report that there is no such level. -/
def openLog {m : Type → Type} [Monad m] (files : Files m) (options : Options) :
    m (Except Report Log) := do
  let name := options.logLevel.getD "off"
  match Level.ofText? name with
  | none => return .error ⟨"Unknown log level: " ++ name, none⟩
  | some level =>
    let log : Log := { settings := { global := level } }
    match options.logFile with
    | none => return .ok log
    | some path =>
      match ← files.append path with
      | .ok _ => return .ok log.openFile
      | .error reason => return .error ⟨"opening log file " ++ path, some reason⟩

/-- Reads and loads the program; the log then holds the entries of loading. -/
def loadFile {m : Type → Type} [Monad m] (files : Files m) (options : Options) (file : String)
    (log : Log) : m (Log × Except Report Simulator) := do
  match ← files.read file with
  | .error reason => return (log, .error ⟨"reading " ++ file, some reason⟩)
  | .ok program =>
    let start := options.offset.getD 0
    let log := log.report (loadEvents program start)
    match Simulator.load {} program start with
    | .ok s => return (log, .ok s)
    | .error e => return (log, .error ⟨"loading " ++ file, some e.message⟩)

/-- Carries out the listing command on a loaded program. -/
def listTo {m : Type → Type} [Monad m] (files : Files m) (options : Options) (s : Simulator)
    (log : Log) : m Outcome := do
  match options.output with
  | none =>
    let (log, text, failure) := disassemble s log
    return .ofLog log text failure
  | some path =>
    match ← files.create path with
    | .error reason => return .ofLog log "" (some ⟨"creating " ++ path, some reason⟩)
    | .ok _ =>
      let (log, text, failure) := disassemble s log
      return { Outcome.ofLog log "" failure with output := some (path, text) }

/-- Opens the log, loads the program and hands both on. -/
def withProgram {m : Type → Type} [Monad m] (files : Files m) (options : Options) (file : String)
    (action : Simulator → Log → m Outcome) : m Outcome := do
  match ← openLog files options with
  | .error report => return .ofLog {} "" (some report)
  | .ok log =>
    match ← loadFile files options file log with
    | (log, .error report) => return .ofLog log "" (some report)
    | (log, .ok s) => action s log

/-- Name and version of the program. -/
def versionText : String := "sim86 0.1.0\n"

/-- A short usage text. -/
def helpText : String :=
  "8086 disassembler and simulator\n\n" ++
  "Usage: sim86 [--log-level LEVEL] [--log-file PATH] COMMAND\n\n" ++
  "Commands:\n" ++
  "  disasm FILE [--offset N] [--output PATH]\n" ++
  "  sim FILE [--offset N] [--estimate] [--step-limit N] [--json] [--trace]\n"

/-- Carries out a request. -/
def Request.run {m : Type → Type} [Monad m] (files : Files m) : Request → m Outcome
  | .version => return { stdout := versionText }
  | .help => return { stdout := helpText }
  | .disasm options file => withProgram files options file (listTo files options)
  | .sim options file =>
    withProgram files options file fun s log => return simulate options s log

/-- Carries out a command line; arguments that are refused end with exit code 2. -/
def run {m : Type → Type} [Monad m] (files : Files m) (arguments : List String) : m Outcome :=
  match Request.ofArguments arguments with
  | .ok request => request.run files
  | .error e => return { code := 2, stderr := "error: " ++ e.message ++ "\n" }

end Machine8086.CommandLine
