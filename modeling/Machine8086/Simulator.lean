import Machine8086.Decode
import Machine8086.Execution
import Machine8086.Instruction.Clocks
import Machine8086.Instruction.Text

/-!
# Simulator

Memory, processor and the extent of the loaded program. A step is first worked out by `preview`,
which changes nothing, and then carried out by `commit`; so a step that fails leaves the simulator
as it was. The end of the program is a natural number, as it can be the whole address space.
-/

namespace Machine8086

/-- The wording of a load error. -/
def LoadOverflow.message (e : LoadOverflow) : String :=
  "loading " ++ Numeral.decimal e.length ++ " bytes at 0x" ++ Numeral.upperHex 4 e.start.toNat ++
    " exceeds the 64 KiB address space"

/-- Memory and processor with the extent of the program, whose end is exclusive. -/
structure Simulator where
  memory : Memory := .zero
  cpu : Cpu := {}
  programStart : UInt16 := 0
  programEnd : Nat := 0
  deriving Inhabited

/-- Why a step fails. -/
inductive StepError where
  | decode (error : DecodeError)
  | execute (decoded : Decoded) (error : ExecuteError)
  deriving DecidableEq, Repr

/-- The wording of a failed step. -/
def StepError.message : StepError → String
  | decode error => error.message
  | execute _ error => error.message

/-- One executed instruction: where it was, what it did, and the processor around it. -/
structure Step extends Decoded where
  effect : Effect
  before : Cpu
  after : Cpu
  clocks : Option Nat := none
  deriving DecidableEq, Repr, Inhabited

namespace Step

/-- Assembly text of the executed instruction. -/
def text (s : Step) : String := s.instruction.text

end Step

/-- A change of a register or of the flags. -/
inductive RegisterChange where
  | word (name : String) (old new : UInt16)
  | flags (old new : Flags)
  deriving DecidableEq, Repr

/-- A change as `name:old->new`, registers in hexadecimal. -/
def RegisterChange.text : RegisterChange → String
  | word name old new =>
    name ++ ":0x" ++ Numeral.hex 1 old.toNat ++ "->0x" ++ Numeral.hex 1 new.toNat
  | flags old new => "flags:" ++ old.letters ++ "->" ++ new.letters

/-- The words that differ between two processor states, then the flags if they differ. -/
def Cpu.changes (before after : Cpu) : List RegisterChange :=
  ((before.words.zip after.words).filterMap fun ((name, old), (_, new)) =>
    if old = new then none else some (.word name old new)) ++
  if before.flags = after.flags then [] else [.flags before.flags after.flags]

/-- What a step changed in the processor. -/
def Step.changes (s : Step) : List RegisterChange := s.before.changes s.after

namespace Simulator

/-- Loads a program, makes it the extent and points the instruction pointer at it. -/
def load (s : Simulator) (program : List UInt8) (start : UInt16) : Except LoadOverflow Simulator :=
  (s.memory.load program start).map fun memory =>
    { memory
      cpu := { s.cpu with ip := start }
      programStart := start
      programEnd := start.toNat + program.length }

/-- Clears the processor and points the instruction pointer at the program. -/
def resetCpu (s : Simulator) : Simulator :=
  { s with cpu := { ip := s.programStart } }

/-- Decodes the instruction at any address. -/
def decodeAt (s : Simulator) (address : UInt16) : Except DecodeError Decoded :=
  decode s.memory address addressSpace

/-- Works out the step at the instruction pointer, with instruction bytes before `stop`. -/
def preview (s : Simulator) (stop : Nat) : Except StepError Step :=
  match decode s.memory s.cpu.ip stop with
  | .error e => .error (.decode e)
  | .ok d =>
    let advanced := { s.cpu with ip := d.next }
    match effect s.memory advanced d.instruction with
    | .error e => .error (.execute d e)
    | .ok e => .ok { d with effect := e, before := s.cpu, after := e.onCpu advanced }

/-- Carries out a step. -/
def commit (s : Simulator) (step : Step) : Simulator :=
  { s with memory := step.effect.onMemory s.memory, cpu := step.after }

/-- Executes the instruction at the instruction pointer, with instruction bytes before `stop`. -/
def stepWithin (s : Simulator) (stop : Nat) : Except StepError (Step × Simulator) :=
  (s.preview stop).map fun step => (step, s.commit step)

/-- Executes the instruction at the instruction pointer, wherever that points. -/
def step (s : Simulator) : Except StepError (Step × Simulator) := s.stepWithin addressSpace

/-- The instruction pointer lies in the program. -/
def inProgram (s : Simulator) : Bool :=
  s.programStart.toNat ≤ s.cpu.ip.toNat && s.cpu.ip.toNat < s.programEnd

/-- Executes up to `count` instructions and stops at the first that fails. -/
def stepMany (s : Simulator) : Nat → List Step × Option StepError × Simulator
  | 0 => ([], none, s)
  | count + 1 =>
    match s.preview addressSpace with
    | .error e => ([], some e, s)
    | .ok step =>
      let (steps, failure, final) := (s.commit step).stepMany count
      (step :: steps, failure, final)

end Simulator

end Machine8086
