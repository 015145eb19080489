/-!
# Diagnostic log

Log entries carry a category and a level. A category's own level decides which of its entries are
written; while that is off, the global level does. Written lines go to standard error or, while a
log file is open, to the file.
-/

namespace Machine8086

/-- Severity of an entry, or how much is written. -/
inductive Level where
  | off | error | warn | info | debug | trace
  deriving DecidableEq, Repr, Inhabited

namespace Level

/-- All levels, the quietest first. -/
def all : List Level := [off, error, warn, info, debug, trace]

/-- Position in `all`. -/
def rank : Level → Nat
  | off => 0 | error => 1 | warn => 2 | info => 3 | debug => 4 | trace => 5

/-- Capitalised name. -/
def name : Level → String
  | off => "Off" | error => "Error" | warn => "Warn"
  | info => "Info" | debug => "Debug" | trace => "Trace"

/-- The level named by a text, in any case; the position in `all` is a name too. -/
def ofText? (text : String) : Option Level :=
  match text.toLower with
  | "off" | "0" => some off
  | "error" | "err" | "1" => some error
  | "warn" | "warning" | "2" => some warn
  | "info" | "3" => some info
  | "debug" | "4" => some debug
  | "trace" | "5" => some trace
  | _ => none

end Level

/-- The parts of the simulator that write entries. -/
inductive Category where
  | decoder | execution | timing | memory
  deriving DecidableEq, Repr, Inhabited

namespace Category

/-- All categories. -/
def all : List Category := [decoder, execution, timing, memory]

/-- Capitalised name. -/
def name : Category → String
  | decoder => "Decoder" | execution => "Execution" | timing => "Timing" | memory => "Memory"

end Category

/-- The levels that decide what is written. -/
structure LogSettings where
  global : Level := .off
  decoder : Level := .off
  execution : Level := .off
  timing : Level := .off
  memory : Level := .off
  deriving DecidableEq, Repr, Inhabited

namespace LogSettings

/-- A category's own level. -/
def own (s : LogSettings) : Category → Level
  | .decoder => s.decoder
  | .execution => s.execution
  | .timing => s.timing
  | .memory => s.memory

/-- Changes a category's own level. -/
def setOwn (s : LogSettings) (category : Category) (level : Level) : LogSettings :=
  match category with
  | .decoder => { s with decoder := level }
  | .execution => { s with execution := level }
  | .timing => { s with timing := level }
  | .memory => { s with memory := level }

/-- The level that holds for a category: its own unless that is off, else the global one. -/
def effective (s : LogSettings) (category : Category) : Level :=
  if s.own category = .off then s.global else s.own category

/-- Entries of this category and level are written. -/
def allows (s : LogSettings) (category : Category) (level : Level) : Bool :=
  level != .off && level.rank ≤ (s.effective category).rank

end LogSettings

/-- One entry. -/
structure LogEntry where
  category : Category
  level : Level
  text : String
  deriving DecidableEq, Repr

/-- An entry as a line. -/
def LogEntry.line (e : LogEntry) : String := "[" ++ e.category.name ++ "] " ++ e.text

/-- The settings and the lines written so far; `file` is present while a log file is open. -/
structure Log where
  settings : LogSettings := {}
  errorLines : Array String := #[]
  file : Option (Array String) := none
  deriving DecidableEq, Repr, Inhabited

namespace Log

/-- Writes a line to the open file, or else to standard error. -/
def putLine (log : Log) (line : String) : Log :=
  match log.file with
  | some lines => { log with file := some (lines.push line) }
  | none => { log with errorLines := log.errorLines.push line }

/-- Writes an entry if the settings allow it. -/
def put (log : Log) (entry : LogEntry) : Log :=
  if log.settings.allows entry.category entry.level then log.putLine entry.line else log

/-- Opens an empty log file. -/
def openFile (log : Log) : Log := { log with file := some #[] }

/-- Closes the log file; the lines written to it are its content. -/
def closeFile (log : Log) : Log × Array String :=
  ({ log with file := none }, log.file.getD #[])

end Log

end Machine8086
