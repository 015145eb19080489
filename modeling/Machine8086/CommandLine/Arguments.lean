import Machine8086.CommandLine.Address

/-!
# Arguments of the command line

`disasm FILE` and `sim FILE` with their options, and two options that may stand before or after the
command. An option's value follows in the next argument or after an equals sign, for a one-letter
option also at once. An argument that begins with a dash, other than a single dash, is never taken
as a separate value. Each option may be given once before and once after the command; the later one
counts. After a lone `--` everything is a file name.
-/

namespace Machine8086.CommandLine

/-- Why the arguments are refused. -/
inductive UsageError where
  | unknownArgument (argument : String)
  | unknownCommand (name : String)
  | missingCommand
  | missingFile
  | missingValue (option : String)
  | unexpectedValue (option : String)
  | repeated (option : String)
  | invalidValue (option value : String)
  deriving DecidableEq, Repr

/-- The wording of a usage error. -/
def UsageError.message : UsageError → String
  | unknownArgument argument => "unexpected argument '" ++ argument ++ "'"
  | unknownCommand name => "unrecognized subcommand '" ++ name ++ "'"
  | missingCommand => "a subcommand is required"
  | missingFile => "a file is required"
  | missingValue option => "a value is required for '--" ++ option ++ "'"
  | unexpectedValue option => "'--" ++ option ++ "' takes no value"
  | repeated option => "'--" ++ option ++ "' cannot be used multiple times"
  | invalidValue option value => "invalid value '" ++ value ++ "' for '--" ++ option ++ "'"

/-- A load address; why another text is refused is not reported. -/
def address? (text : String) : Option UInt16 := (readAddress text).toOption

/-- A step limit of 64 bits. -/
def stepLimit? (text : String) : Option Nat :=
  (Numeral.readBelow (Nat.pow 2 64) 10 text.toList).toOption

/-- How an argument looks. -/
inductive Shape where
  | separator
  | long (name : String) (attached : Option String)
  | short (letter : Char) (attached : String)
  | plain (text : String)
  deriving DecidableEq, Repr

/-- Splits the text of a long option at its first equals sign. -/
def splitLong (text : List Char) : Shape :=
  let name := text.takeWhile (· != '=')
  match text.dropWhile (· != '=') with
  | [] => .long (String.ofList name) none
  | _ :: value => .long (String.ofList name) (some (String.ofList value))

/-- The shape of an argument. -/
def Shape.of (argument : String) : Shape :=
  match argument.toList with
  | ['-', '-'] => separator
  | '-' :: '-' :: text => splitLong text
  | '-' :: letter :: attached => short letter (String.ofList attached)
  | _ => plain argument

/-- The options that take a value or are set. -/
inductive OptionName where
  | logLevel | logFile | offset | output | stepLimit | estimate | json | trace
  deriving DecidableEq, Repr

namespace OptionName

/-- Long name. -/
def name : OptionName → String
  | logLevel => "log-level" | logFile => "log-file" | offset => "offset" | output => "output"
  | stepLimit => "step-limit" | estimate => "estimate" | json => "json" | trace => "trace"

/-- The option takes a value. -/
def takesValue : OptionName → Bool
  | logLevel | logFile | offset | output | stepLimit => true
  | estimate | json | trace => false

end OptionName

/-- Where an argument stands: before the command, or after one of the two commands. -/
inductive Scope where
  | top | disasm | sim
  deriving DecidableEq, Repr

namespace Scope

/-- The options known in a scope. -/
def options : Scope → List OptionName
  | top => [.logLevel, .logFile]
  | disasm => [.logLevel, .logFile, .offset, .output]
  | sim => [.logLevel, .logFile, .offset, .stepLimit, .estimate, .json, .trace]

/-- The option with a long name. -/
def long? (scope : Scope) (name : String) : Option OptionName :=
  scope.options.find? (·.name == name)

/-- The option with a one-letter name; only the output file has one. -/
def short? (scope : Scope) (letter : Char) : Option OptionName :=
  scope.options.find? fun option => option == .output && letter == 'o'

end Scope

/-- The options and the file name given in one scope. -/
structure Options where
  logLevel : Option String := none
  logFile : Option String := none
  offset : Option UInt16 := none
  output : Option String := none
  stepLimit : Option Nat := none
  estimate : Bool := false
  json : Bool := false
  trace : Bool := false
  file : Option String := none
  /-- The usage text is asked for; what follows is not read. -/
  help : Bool := false
  deriving DecidableEq, Repr, Inhabited

namespace Options

/-- Fills a place that must still be empty. -/
def once {α : Type} (option : OptionName) : Option α → α → Except UsageError (Option α)
  | none, value => .ok (some value)
  | some _, _ => .error (.repeated option.name)

/-- A path, which must not be empty. -/
def path (option : OptionName) (value : String) : Except UsageError String :=
  if value = "" then .error (.missingValue option.name) else .ok value

/-- The reading of a value, or a refusal. -/
def parsed {α : Type} (option : OptionName) (value : String) :
    Option α → Except UsageError α
  | some a => .ok a
  | none => .error (.invalidValue option.name value)

/-- Stores the value of an option that takes one. -/
def setValue (o : Options) (option : OptionName) (value : String) : Except UsageError Options :=
  match option with
  | .logLevel => return { o with logLevel := ← once option o.logLevel value }
  | .logFile => return { o with logFile := ← once option o.logFile (← path option value) }
  | .offset => return { o with
      offset := ← once option o.offset (← parsed option value (address? value)) }
  | .output => return { o with output := ← once option o.output (← path option value) }
  | .stepLimit => return { o with
      stepLimit := ← once option o.stepLimit (← parsed option value (stepLimit? value)) }
  | _ => .error (.unexpectedValue option.name)

/-- Sets an option that takes no value. -/
def setFlag (o : Options) (option : OptionName) : Except UsageError Options :=
  let repeated : Except UsageError Options := .error (.repeated option.name)
  match option with
  | .estimate => if o.estimate then repeated else .ok { o with estimate := true }
  | .json => if o.json then repeated else .ok { o with json := true }
  | .trace => if o.trace then repeated else .ok { o with trace := true }
  | _ => .error (.missingValue option.name)

/-- Stores the file name. -/
def setFile (o : Options) (text : String) : Except UsageError Options :=
  match o.file with
  | some _ => .error (.unknownArgument text)
  | none => if text = "" then .error .missingFile else .ok { o with file := some text }

/-- Stores the file name from arguments that are all file names. -/
def setFiles (o : Options) : List String → Except UsageError Options
  | [] => .ok o
  | text :: rest => do (← o.setFile text).setFiles rest

end Options

/-- An option as it was written, with the value attached to it. -/
structure Written where
  option : OptionName
  attached : Option String

/-- The option that an argument writes in a scope. -/
def Shape.written? (scope : Scope) : Shape → Option Written
  | long name attached => (scope.long? name).map (⟨·, attached⟩)
  | short letter attached =>
    let value := match attached.toList with
      | [] => none
      | '=' :: rest => some (String.ofList rest)
      | text => some (String.ofList text)
    (scope.short? letter).map (⟨·, value⟩)
  | _ => none

/-- Applies a written option to the arguments after it; returns those that are left. -/
def Options.apply (o : Options) (w : Written) (rest : List String) :
    Except UsageError (Options × { left : List String // left.length ≤ rest.length }) :=
  if w.option.takesValue then
    match w.attached, rest with
    | some value, rest => return (← o.setValue w.option value, ⟨rest, Nat.le_refl _⟩)
    | none, value :: left =>
      -- an argument that looks like an option is never taken as a value
      match Shape.of value with
      | .plain _ => return (← o.setValue w.option value, ⟨left, by simp⟩)
      | _ => .error (.missingValue w.option.name)
    | none, [] => .error (.missingValue w.option.name)
  else
    match w.attached with
    | some _ => .error (.unexpectedValue w.option.name)
    | none => return (← o.setFlag w.option, ⟨rest, Nat.le_refl _⟩)

/-- Reads the arguments after a command. -/
def Options.read (scope : Scope) (o : Options) : List String → Except UsageError Options
  | [] => .ok o
  | argument :: rest =>
    match Shape.of argument with
    | .separator => o.setFiles rest
    | .plain text => do (← o.setFile text).read scope rest
    -- the request for help ends the reading, whatever follows
    | .long "help" none => .ok { o with help := true }
    | .short 'h' _ => .ok { o with help := true }
    | shape =>
      match shape.written? scope with
      | none => .error (.unknownArgument argument)
      | some w =>
        match o.apply w rest with
        | .error e => .error e
        | .ok (o, left) => o.read scope left.val
termination_by arguments => arguments.length
decreasing_by
  all_goals simp only [List.length_cons]
  · omega
  · have := left.property
    omega

/-- What the command line asks for. -/
inductive Request where
  | version
  | help
  /-- A listing of the program in a file. -/
  | disasm (options : Options) (file : String)
  /-- A run of the program in a file. -/
  | sim (options : Options) (file : String)
  deriving DecidableEq, Repr

/-- Options of the command, with those given before it where it has none of its own. -/
def Options.under (inner outer : Options) : Options :=
  { inner with
    logLevel := inner.logLevel.or outer.logLevel
    logFile := inner.logFile.or outer.logFile }

/-- Reads the arguments of a command. -/
def readCommand (outer : Options) (scope : Scope) (command : Options → String → Request)
    (arguments : List String) : Except UsageError Request := do
  let options ← Options.read scope {} arguments
  if options.help then return .help
  match options.file with
  | none => .error .missingFile
  | some file => return command (options.under outer) file

/-- Reads the arguments of `help`: at most one name of a command. -/
def readHelp : List String → Except UsageError Request
  | [] => .ok .help
  | [name] => if ["disasm", "sim", "help"].contains name then .ok .help
    else .error (.unknownCommand name)
  | _ :: name :: _ => .error (.unknownCommand name)

/-- Reads the arguments from the start; options before the command gather in `o`. -/
def readTop (o : Options) : List String → Except UsageError Request
  | [] => .error .missingCommand
  | argument :: rest =>
    match Shape.of argument with
    | .plain "disasm" => readCommand o .disasm .disasm rest
    | .plain "sim" => readCommand o .sim .sim rest
    | .plain "help" => readHelp rest
    | .long "help" none => .ok .help
    | .short 'h' _ => .ok .help
    | .long "version" none => .ok .version
    | .short 'V' _ => .ok .version
    | .plain name => .error (.unknownCommand name)
    | shape =>
      match shape.written? .top with
      | none => .error (.unknownArgument argument)
      | some w =>
        match o.apply w rest with
        | .error e => .error e
        | .ok (o, left) => readTop o left.val
termination_by arguments => arguments.length
decreasing_by
  simp only [List.length_cons]
  have := left.property
  omega

/-- Reads a whole command line. -/
def Request.ofArguments (arguments : List String) : Except UsageError Request :=
  readTop {} arguments

end Machine8086.CommandLine
