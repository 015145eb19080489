import Machine8086.Listing
import Machine8086.Log
import Machine8086.Run

/-!
# Events

What the simulator reports while it works. Each event has a category, a level and a text, and the
events of an operation are a function of its outcome: an operation computes the same whether or not
anything is written to the log.
-/

namespace Machine8086

/-- Something worth an entry in the log. -/
inductive Event where
  | decoded (d : Decoded)
  | decodeFailed (error : DecodeError)
  | flagsSet (flags : Flags)
  | stored (store : Store)
  | jumped (source target : UInt16)
  | executionFailed (address : UInt16) (error : ExecuteError)
  | costed (instruction : Instruction) (clocks : Nat)
  | loaded (length : Nat) (start : UInt16)
  | loadRefused (error : LoadOverflow)
  | limitReached (ip : UInt16)
  | runFinished (steps : Nat)
  | listed (count : Nat)
  deriving DecidableEq, Repr

namespace Event

/-- The part of the simulator that reports the event. -/
def category : Event → Category
  | decoded _ | decodeFailed _ | listed _ => .decoder
  | flagsSet _ | stored _ | jumped _ _ | executionFailed _ _ | limitReached _ | runFinished _ =>
    .execution
  | costed _ _ => .timing
  | loaded _ _ | loadRefused _ => .memory

/-- Severity of the event. -/
def level : Event → Level
  | decoded _ | stored _ | jumped _ _ | costed _ _ => .trace
  | flagsSet _ | loaded _ _ => .debug
  | limitReached _ | runFinished _ | listed _ => .info
  | decodeFailed _ | executionFailed _ _ | loadRefused _ => .warn

/-- An address as four hexadecimal digits. -/
def addressText (address : UInt16) : String := Numeral.upperHex 4 address.toNat

/-- A flag as a truth value. -/
def flagText (flag : Bool) : String := if flag then "true" else "false"

/-- Text of the event. -/
def text : Event → String
  | decoded d =>
    addressText d.address ++ ": " ++ d.instruction.text ++ " (" ++ Numeral.decimal d.size ++
      " bytes)"
  | decodeFailed error => error.message
  | flagsSet flags => "flags: zero=" ++ flagText flags.zero ++ " sign=" ++ flagText flags.sign
  | stored (.register r value) => r.name ++ " <- 0x" ++ addressText (r.width.truncate value)
  | stored (.memory address width value) =>
    "[" ++ addressText address ++ "] <- 0x" ++ addressText (width.truncate value) ++ " (" ++
      width.name ++ ")"
  | jumped source target =>
    "jne taken: ip " ++ addressText source ++ " -> " ++ addressText target
  | executionFailed address error => addressText address ++ ": " ++ error.message
  | costed instruction clocks =>
    instruction.text ++ " = " ++ Numeral.decimal clocks ++ " clocks"
  | loaded length start =>
    "loaded " ++ Numeral.decimal length ++ " bytes at " ++ addressText start
  | loadRefused error =>
    "refusing to load " ++ Numeral.decimal error.length ++ " bytes at " ++
      addressText error.start ++ ": address space ends at " ++ Numeral.upperHex 5 addressSpace
  | limitReached ip => "step limit reached at ip " ++ addressText ip
  | runFinished steps => "run finished after " ++ Numeral.decimal steps ++ " instructions"
  | listed count => "disassembled " ++ Numeral.decimal count ++ " instructions"

/-- The log entry of the event. -/
def entry (e : Event) : LogEntry := ⟨e.category, e.level, e.text⟩

end Event

namespace Log

/-- Writes the entry of an event if the settings allow it; only then is its text made. -/
def reportEvent (log : Log) (event : Event) : Log :=
  if log.settings.allows event.category event.level then log.putLine event.entry.line else log

/-- Writes the entries of events in order. -/
def report (log : Log) (events : List Event) : Log := events.foldl reportEvent log

end Log

/-- Events of decoding an instruction. -/
def decodeEvents : Except DecodeError Decoded → List Event
  | .ok d => [.decoded d]
  | .error .endOfStream => []
  | .error e => [.decodeFailed e]

/-- Events of carrying out an effect; `ip` is the address after the instruction. -/
def Effect.events (e : Effect) (ip : UInt16) : List Event :=
  e.flags.toList.map .flagsSet ++ e.store.toList.map .stored ++ e.jump.toList.map (.jumped ip)

/-- Events of estimating an instruction. -/
def Instruction.clockEvents (i : Instruction) : List Event :=
  i.clocks?.toList.map (.costed i)

/-- Events of a step: decoding, execution, and the estimate if there was one. -/
def Step.events (s : Step) : List Event :=
  .decoded s.toDecoded :: (s.effect.events s.next ++ s.clocks.toList.map (.costed s.instruction))

/-- Events of a step that fails. -/
def StepError.events : StepError → List Event
  | .decode e => decodeEvents (.error e)
  | .execute d e => [.decoded d, .executionFailed d.address e]

/-- Events at the end of a run, after those of its reported steps. -/
def RunResult.endEvents {ρ : Type} (r : RunResult ρ) : List Event :=
  match r.ending with
  | .leftProgram => [.runFinished r.steps]
  | .limitReached => [.limitReached r.simulator.cpu.ip, .runFinished r.steps]
  | .stepFailed e => e.events
  | .estimateFailed step => step.events
  | .counterFull step =>
    step.events ++ if r.clocks.isSome then step.instruction.clockEvents else []

/-- Events of loading a program. -/
def loadEvents (program : List UInt8) (start : UInt16) : List Event :=
  if start.toNat + program.length ≤ addressSpace then [.loaded program.length start]
  else [.loadRefused ⟨start, program.length⟩]

/-- Events of disassembling a listing to its end. -/
def Listing.events (listing : Listing) : List Event :=
  listing.instructions.map .decoded ++
    match listing.failure with
    | some e => [.decodeFailed e.source]
    | none => [.listed listing.instructions.length]

/-- Events of writing a listing to a writer of limited capacity. Nothing is decoded once the writer
has refused. -/
def Listing.writeEvents (listing : Listing) (capacity : Nat) : List Event :=
  if listing.text.length ≤ capacity then listing.events
  -- the header is refused before anything is decoded
  else if capacity < header.length then []
  else (startedWithin (capacity - header.length) listing.instructions).map .decoded

end Machine8086
