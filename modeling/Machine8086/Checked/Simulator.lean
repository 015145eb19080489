import Machine8086.Checked.Decode
import Machine8086.Checked.Execution
import Machine8086.Session

/-!
# The simulator in place

The operations of the simulator, each of them carried out on the simulator itself in the order in
which memory, processor and extent are changed. A step moves the instruction pointer before the
instruction is executed and takes the processor back if that fails; the other operations change
nothing before their last check. Positions have 32 bits, and what is counted has 64.
-/

namespace Machine8086.Checked

/-! ## Loading and stepping -/

/-- Replaces the bytes of a range of memory, which is taken to have room for them. -/
def fill (m : Memory) (start : UInt16) (bytes : List UInt8) : Except Fault Memory := do
  assert (start.toNat + bytes.length ≤ m.bytes.size)
  return m.writeBytes start bytes

/-- Loads a program, makes it the extent and points the instruction pointer at it. -/
def load (program : List UInt8) (start : UInt16) : Action Simulator LoadOverflow Nat := do
  let s ← get
  if addressSpace < start.toNat + program.length then throw ⟨start, program.length⟩
  setMemory (← fill s.memory start program)
  modify fun s => { s with programStart := start }
  let stop ← sum 32 start.toNat program.length
  modify fun s => { s with programEnd := stop }
  modify fun s => { s with cpu := { s.cpu with ip := start } }
  return program.length

/-- Size and text of the instruction at any address. -/
def decodeOne (address : UInt16) : Action Simulator DecodeError (UInt16 × String) := do
  let s ← get
  let (result, cursor) ← (decode s.memory addressSpace).exec address
  let instruction ← Action.ofExcept result
  return (cursor - address, ← text instruction)

/-- An executed instruction as it is told of. -/
structure Executed where
  address : UInt16
  instruction : Instruction
  before : Cpu
  after : Cpu
  deriving DecidableEq, Repr

/-- What a step tells of its instruction. -/
def Executed.ofStep (step : Step) : Executed :=
  ⟨step.address, step.instruction, step.before, step.after⟩

/-- Executes the instruction at the instruction pointer, with instruction bytes before `stop`. -/
def stepWithin (stop : Nat) : Action Simulator StepError Executed := do
  let s ← get
  let before := s.cpu
  let (result, cursor) ← (decode s.memory stop).exec before.ip
  match result with
  | .error error => throw (.decode error)
  | .ok instruction =>
    setCpu { before with ip := cursor }
    match ← (execute instruction).attempt with
    | .error error =>
      setCpu before
      throw (.execute ⟨before.ip, (cursor - before.ip).toNat, instruction⟩ error)
    | .ok () =>
      let s ← get
      return ⟨before.ip, instruction, before, s.cpu⟩

/-- Executes the instruction at the instruction pointer, wherever that points. -/
def step : Action Simulator StepError Executed := stepWithin addressSpace

/-! ## Running -/

/-- Adds the estimate of an instruction to the clocks, if they are counted. -/
def addClocks (i : Instruction) : Option Nat → Action Simulator Failure (Option Nat)
  | none => return none
  | some total => do
    match ← estimate i with
    | none => throw (.estimate i.operation)
    | some clocks => return some (← sum 64 total clocks)

/-- Goes on with a run after so many steps and clocks, for a number of rounds. -/
def runFrom (config : RunConfig) : Nat → Nat → Option Nat → Action Simulator Failure RunSummary
  | rounds, steps, clocks => do
    let s ← get
    if !s.inProgram || config.stepLimit.any (· ≤ steps) then return ⟨s.cpu, steps, clocks⟩
    match rounds with
    | 0 => Action.fault .endless
    | rounds + 1 =>
      let executed ← (stepWithin s.programEnd).mapError Failure.ofStep
      let clocks ← addClocks executed.instruction clocks
      let steps ← sum 64 steps 1
      runFrom config rounds steps clocks

/-- Runs the program until it is left or the limit is reached. -/
def run (config : RunConfig) : Action Simulator Failure RunSummary :=
  runFrom config counterRange 0 (if config.estimateClocks then some 0 else none)

/-! ## Listing -/

/-- Why a listing ends early. -/
inductive ListingFailure (ε : Type) where
  | writer (error : ε)
  | listing (error : ListingError)

/-- A writer in states `ω`. It takes a piece of text, or fails; its state may change in both
cases. -/
abbrev Writer (ω ε : Type) := String → ω → Except ε Unit × ω

section Listing

variable {ω ε : Type} (writer : Writer ω ε)

/-- Gives a piece of text to the writer. -/
def put (piece : String) : Action (Simulator × ω) (ListingFailure ε) Unit := do
  let (s, w) ← get
  let (result, w) := writer piece w
  set (s, w)
  (Action.ofExcept result).mapError .writer

/-- Goes on with a listing from a position, after so many instructions, for a number of rounds. -/
def listFrom : Nat → Nat → Nat → Action (Simulator × ω) (ListingFailure ε) Nat
  | rounds, position, index => do
    let (s, _) ← get
    if s.programEnd ≤ position then return index
    match rounds with
    | 0 => Action.fault .endless
    | rounds + 1 =>
      let address := UInt16.ofNat position
      let (result, cursor) ← (decode s.memory s.programEnd).exec address
      match result with
      | .error source => throw (.listing ⟨index, address, source⟩)
      | .ok instruction =>
        put writer (← text instruction)
        put writer "\n"
        let position ← sum 32 position (cursor - address).toNat
        let index ← sum 64 index 1
        listFrom rounds position index

/-- Lists the program to a writer. -/
def disassembleTo : Action (Simulator × ω) (ListingFailure ε) Nat := do
  put writer "bits 16\n"
  put writer "\n"
  let (s, _) ← get
  listFrom writer addressSpace s.programStart.toNat 0

end Listing

/-- The writer that keeps the text. -/
def keepText : Writer String Empty := fun piece kept => (.ok (), kept ++ piece)

/-- The listing of the program as a text. -/
def disassemble : Action Simulator ListingError String := do
  let s ← get
  let (result, s, kept) ← (disassembleTo keepText).exec (s, "")
  set s
  match result with
  | .ok _ => return kept
  | .error (.listing error) => throw error
  | .error (.writer error) => error.elim

/-! ## Setting and saving -/

variable {ε : Type}

/-- Clears the processor and points the instruction pointer at the program. -/
def resetCpu : Action Simulator ε Unit := do
  setCpu {}
  let s ← get
  setCpu { s.cpu with ip := s.programStart }

/-- Replaces the value of a register. -/
def setRegister (r : Register) (value : UInt16) : Action Simulator ε Unit := do
  let s ← get
  setCpu (← writeRegister s.cpu r value)

/-- A snapshot of the processor. -/
def saveState : Action Simulator ε Json := do
  let s ← get
  return Snapshot.ofState s.cpu

/-- Reads a snapshot into the processor. -/
def loadState (snapshot : Json) : Action Simulator SnapshotError Unit := do
  setCpu (← Action.ofExcept (Snapshot.read snapshot))

end Machine8086.Checked
