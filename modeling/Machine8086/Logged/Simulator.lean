import Machine8086.Checked.Simulator
import Machine8086.Logged.Action

/-!
# The simulator with its log calls

The operations of the simulator with every call of the log in its place: after an instruction has
been decoded, after memory has been loaded, between the flags and the store, before the jump. What a
message shows it reads from the simulator as it stands at the call.
-/

namespace Machine8086.Logged

variable {ε : Type}

/-! ## Decoding, loading and estimating -/

/-- Decodes the instruction at an address. That there are no bytes is not told. -/
def decode (address : UInt16) (stop : Nat) : LoggedAction DecodeError Decoded := do
  let s ← getSimulator
  match Machine8086.decode s.memory address stop with
  | .ok d =>
    log .decoder .trace fun _ => (Event.decoded d).text
    return d
  | .error .endOfStream => throw .endOfStream
  | .error e =>
    log .decoder .warn fun _ => e.message
    throw e

/-- Places bytes in memory. -/
def loadMemory (bytes : List UInt8) (start : UInt16) : LoggedAction LoadOverflow Nat := do
  let s ← getSimulator
  if addressSpace < start.toNat + bytes.length then
    log .memory .warn fun _ => (Event.loadRefused ⟨start, bytes.length⟩).text
    throw ⟨start, bytes.length⟩
  setSimulator { s with memory := s.memory.writeBytes start bytes }
  log .memory .debug fun _ => (Event.loaded bytes.length start).text
  return bytes.length

/-- Loads a program, makes it the extent and points the instruction pointer at it. -/
def load (program : List UInt8) (start : UInt16) : LoggedAction LoadOverflow Nat := do
  let length ← loadMemory program start
  let s ← getSimulator
  setSimulator { s with
    cpu := { s.cpu with ip := start }
    programStart := start
    programEnd := start.toNat + length }
  return length

/-- The estimate of an instruction. -/
def estimate (i : Instruction) : LoggedAction Failure Nat :=
  match i.clocks? with
  | some clocks => do
    log .timing .trace fun _ => (Event.costed i clocks).text
    return clocks
  | none => throw (.estimate i.operation)

/-! ## Execution -/

/-- Sets the flags for a result. -/
def updateFlags (width : Width) (result : UInt16) : LoggedAction ε Unit := do
  let s ← getSimulator
  setSimulator { s with cpu := { s.cpu with flags := .ofResult width result } }
  let s ← getSimulator
  log .execution .debug fun _ => (Event.flagsSet s.cpu.flags).text

/-- Stores a value in a destination operand, and tells where it went. -/
def writeDestination (width : Width) (value : UInt16) : Operand → LoggedAction ε Store
  | .register r => do
    let s ← getSimulator
    setSimulator { s with cpu := s.cpu.write r value }
    let s ← getSimulator
    log .execution .trace fun _ => r.name ++ " <- 0x" ++ Event.addressText (s.cpu.read r)
    return .register r value
  | .memory o => do
    let s ← getSimulator
    let address := s.cpu.effectiveAddress o
    match width with
    | .byte => setSimulator { s with memory := s.memory.write address value.toUInt8 }
    | .word => setSimulator { s with memory := s.memory.writeWord address value }
    log .execution .trace fun _ =>
      "[" ++ Event.addressText address ++ "] <- 0x" ++ Event.addressText (width.truncate value) ++
        " (" ++ width.name ++ ")"
    return .memory address width value

/-- Sets the flags for a result and stores it in the destination. -/
def storeResult (width : Width) (result : UInt16) (destination : Operand) :
    LoggedAction ε Effect := do
  updateFlags width result
  let store ← writeDestination width result destination
  return { flags := some (.ofResult width result), store := some store }

/-- Executes an instruction, and tells what it did; the instruction pointer stands past it. -/
def execute (i : Instruction) : LoggedAction ExecuteError Effect := do
  let s ← getSimulator
  match i.operation, i.operands with
  | .mov, .pair destination source =>
    let width ← Checked.Action.ofExcept i.operands.executedWidth
    let store ← writeDestination width (sourceValue s.memory s.cpu width source) destination
    return { store := some store }
  | .add, .pair destination source =>
    let width ← Checked.Action.ofExcept i.operands.executedWidth
    storeResult width (sumOf s.memory s.cpu destination source width) destination
  | .sub, .pair destination source =>
    let width ← Checked.Action.ofExcept i.operands.executedWidth
    storeResult width (differenceOf s.memory s.cpu destination source width) destination
  | .cmp, .pair destination source =>
    let width ← Checked.Action.ofExcept i.operands.executedWidth
    let result := differenceOf s.memory s.cpu destination source width
    updateFlags width result
    return { flags := some (.ofResult width result) }
  | .jne, .relative offset =>
    if s.cpu.flags.zero then return {}
    let target := s.cpu.ip + offset.toInt16.toUInt16
    log .execution .trace fun _ => (Event.jumped s.cpu.ip target).text
    setSimulator { s with cpu := { s.cpu with ip := target } }
    return { jump := some target }
  | operation, _ => throw (.unimplemented operation)

/-! ## Steps and runs -/

/-- Executes the instruction at the instruction pointer, with instruction bytes before `stop`. -/
def stepWithin (stop : Nat) : LoggedAction StepError Step := do
  let s ← getSimulator
  let before := s.cpu
  let d ← (decode before.ip stop).mapError .decode
  setSimulator { s with cpu := { before with ip := d.next } }
  match ← (execute d.instruction).attempt with
  | .error error =>
    let s ← getSimulator
    setSimulator { s with cpu := before }
    log .execution .warn fun _ => (Event.executionFailed d.address error).text
    throw (.execute d error)
  | .ok effect =>
    let s ← getSimulator
    return { d with effect, before, after := s.cpu }

/-- Executes up to `count` instructions and stops at the first that fails. -/
def stepMany : Nat → LoggedAction ε (List Step × Option StepError)
  | 0 => return ([], none)
  | count + 1 => do
    match ← (stepWithin addressSpace).attempt with
    | .error error => return ([], some error)
    | .ok step =>
      let (steps, failure) ← stepMany count
      return (step :: steps, failure)

/-- A step with its clocks, if they are counted, and the clocks after it. -/
def addClocks (step : Step) : Option UInt64 → LoggedAction Failure (Step × Option UInt64)
  | none => return (step, none)
  | some total => do
    let clocks ← estimate step.instruction
    return ({ step with clocks := some clocks }, some (total + UInt64.ofNat clocks))

/-- Executes a step of a run, with its clocks if they are counted, and gives the clocks after it. -/
def runStep (stop : Nat) (clocks : Option UInt64) :
    LoggedAction Failure (Step × Option UInt64) := do
  addClocks (← (stepWithin stop).mapError Failure.ofStep) clocks

/-- Ends a run after so many steps and clocks. -/
def finishRun (steps : Nat) (clocks : Option UInt64) : LoggedAction ε RunSummary := do
  log .execution .info fun _ => (Event.runFinished steps).text
  let s ← getSimulator
  return ⟨s.cpu, steps, clocks.map UInt64.toNat⟩

/-- The steps that a run has reported, and how it ended. -/
abbrev Reported := List Step × Except Failure RunSummary

/-- A round of a run that may report so many steps more, after so many steps and clocks. The run
goes on with `rest`, unless its counter is full. -/
def runRound (config : RunConfig) (budget steps : Nat) (clocks : Option UInt64)
    (rest : Option (Nat → Option UInt64 → LoggedAction ε Reported)) : LoggedAction ε Reported := do
  let s ← getSimulator
  if !s.inProgram then return ([], .ok (← finishRun steps clocks))
  if config.spent budget then
    log .execution .info fun _ => (Event.limitReached s.cpu.ip).text
    return ([], .ok (← finishRun steps clocks))
  match ← (runStep s.programEnd clocks).attempt with
  | .error failure => return ([], .error failure)
  | .ok (step, clocks) =>
    match rest with
    | none => return ([], .error .counterFull)
    | some rest =>
      let (reported, outcome) ← rest (steps + 1) clocks
      return (step :: reported, outcome)

/-- Goes on with a run that may report so many steps more, after so many steps and clocks. The steps
are listed as they are reported, also if the run fails. -/
def runFrom (config : RunConfig) : Nat → Nat → Option UInt64 → LoggedAction ε Reported
  | 0, steps, clocks => runRound config 0 steps clocks none
  | budget + 1, steps, clocks =>
    runRound config (budget + 1) steps clocks (some (runFrom config budget))

/-- Runs the program until it is left or the limit is reached. -/
def run (config : RunConfig) : LoggedAction ε Reported :=
  runFrom config config.budget 0 (if config.estimateClocks then some 0 else none)

/-! ## Listings -/

/-- Number of instructions or failure of a listing, and the writer after it. -/
abbrev Listed (ω δ : Type) := Except (Checked.ListingFailure δ) Nat × ω

section Listing

variable {ω δ : Type} (writer : Checked.Writer ω δ)

/-- Gives a text and a line end to the writer. -/
def writeLine (text : String) (w : ω) : Except δ Unit × ω :=
  match writer text w with
  | (.ok (), w) => writer "\n" w
  | refused => refused

/-- Goes on with a listing from a position, after so many instructions, for a number of rounds. -/
def listFrom : Nat → Nat → Nat → ω → LoggedAction ε (Listed ω δ)
  | rounds, position, index, w => do
    let s ← getSimulator
    if s.programEnd ≤ position then
      log .decoder .info fun _ => (Event.listed index).text
      return (.ok index, w)
    match rounds with
    | 0 => Checked.Action.fault .endless
    | rounds + 1 =>
      let address := UInt16.ofNat position
      match ← (decode address s.programEnd).attempt with
      | .error source => return (.error (.listing ⟨index, address, source⟩), w)
      | .ok d =>
        match writeLine writer d.instruction.text w with
        | (.error e, w) => return (.error (.writer e), w)
        | (.ok (), w) => listFrom rounds (position + d.size) (index + 1) w

/-- Lists the program to a writer, the directive and a blank line first. -/
def disassembleTo (w : ω) : LoggedAction ε (Listed ω δ) := do
  let s ← getSimulator
  match writeLine writer "bits 16\n" w with
  | (.error e, w) => return (.error (.writer e), w)
  | (.ok (), w) => listFrom writer addressSpace s.programStart.toNat 0 w

end Listing

end Machine8086.Logged
