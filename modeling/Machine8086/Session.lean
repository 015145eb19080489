import Machine8086.Event
import Machine8086.Snapshot

/-!
# Sessions

A simulator together with its log and the snapshot taken last. A request is one operation on them;
`Session.perform` answers it and gives the session after it. What a request computes does not
depend on the log settings, and a request that fails leaves the simulator as it was, a failed run
apart.
-/

namespace Machine8086

/-- Why a request failed. -/
inductive Failure where
  | load (error : LoadOverflow)
  | decode (error : DecodeError)
  | execute (error : ExecuteError)
  | estimate (operation : Operation)
  | write (error : WriteError)
  | snapshot (error : SnapshotError)
  /-- The step counter of a run without a limit has no room for a step. -/
  | counterFull

namespace Failure

/-- The wording of a failure. -/
def message : Failure → String
  | load error => error.message
  | decode error => error.message
  | execute error => error.message
  | estimate operation => "clock estimation of '" ++ operation.mnemonic ++ "' is not implemented"
  | write .full => "I/O error: sink full"
  | write (.listing error) => error.message
  | snapshot error => "invalid state snapshot: " ++ error.message
  | counterFull => "step counter is full"

/-- A step error as a failure. -/
def ofStep : StepError → Failure
  | .decode error => decode error
  | .execute _ error => execute error

end Failure

/-- The summary of a run that ended well, or why it failed. -/
def RunResult.outcome {ρ : Type} (r : RunResult ρ) : Except Failure RunSummary :=
  match r.ending with
  | .leftProgram | .limitReached => .ok r.summary
  | .stepFailed error => .error (.ofStep error)
  | .estimateFailed step => .error (.estimate step.instruction.operation)
  | .counterFull _ => .error .counterFull

/-- The estimate of an instruction, or why there is none. -/
def Instruction.estimate (i : Instruction) : Except Failure Nat :=
  match i.clocks? with
  | some clocks => .ok clocks
  | none => .error (.estimate i.operation)

namespace Simulator

/-- Runs the program and writes its events to a log as they arise. -/
def runLogged (s : Simulator) (config : RunConfig) (log : Log) : RunResult Log :=
  let result := s.runWith config (fun log step => log.report step.events) log
  { result with report := result.report.report result.endEvents }

/-- Runs the program, writes its events to a log and lists the steps. -/
def traceLogged (s : Simulator) (config : RunConfig) (log : Log) : RunResult (List Step × Log) :=
  let result := s.runWith config
    (fun (steps, log) step => (step :: steps, log.report step.events)) ([], log)
  { result with
    report := (result.report.1.reverse, result.report.2.report result.endEvents) }

/-- Reads a snapshot into the processor. -/
def loadState (s : Simulator) (snapshot : Json) : Except SnapshotError Simulator :=
  (Snapshot.read snapshot).map fun cpu => { s with cpu }

end Simulator

/-- A simulator, its log and the snapshot taken last. -/
structure Session where
  simulator : Simulator := {}
  log : Log := {}
  saved : Json := .null
  deriving Inhabited

/-- An operation on a session. -/
inductive Request where
  | load (program : List UInt8) (start : UInt16)
  /-- Places bytes in memory; extent and instruction pointer stay. -/
  | loadMemory (bytes : List UInt8) (start : UInt16)
  | decode (address : UInt16) (stop : Nat)
  | estimate (instruction : Instruction)
  | disassemble
  | disassembleTo (capacity : Option Nat)
  | step (count : Nat)
  | run (config : RunConfig)
  | trace (config : RunConfig)
  /-- Executes an instruction that is not in memory. -/
  | execute (instruction : Instruction)
  | resetCpu
  | setRegister (r : Register) (value : UInt16)
  | setIp (value : UInt16)
  | setFlags (flags : Flags)
  | writeByte (address : UInt16) (value : UInt8)
  | writeWord (address value : UInt16)
  | writeBytes (address : UInt16) (bytes : List UInt8)
  | saveState
  | restoreState
  | loadState (snapshot : Json)
  | setGlobalLevel (level : Level)
  | setLevel (category : Category) (level : Level)
  | resetLevels
  | message (entry : LogEntry)
  | openLogFile
  | closeLogFile

/-- The answer to a request. -/
inductive Reply where
  | done
  | failed (failure : Failure)
  | loaded (length : Nat)
  | decoded (d : Decoded)
  | estimated (clocks : Nat)
  | listing (text : String)
  | written (listing : WrittenListing)
  | stepped (steps : List Step) (failure : Option Failure)
  | ran (summary : RunSummary)
  | traced (steps : List Step) (outcome : Except Failure RunSummary)
  | saved (snapshot : Json)
  /-- Whether the text of a message was asked for. -/
  | logged (taken : Bool)
  | logFile (lines : Array String)

namespace Session

/-- Reports events to the log. -/
def report (s : Session) (events : List Event) : Session := { s with log := s.log.report events }

/-- Replaces the processor state. -/
def withCpu (s : Session) (cpu : Cpu) : Session :=
  { s with simulator := { s.simulator with cpu } }

/-- Replaces the memory. -/
def withMemory (s : Session) (memory : Memory) : Session :=
  { s with simulator := { s.simulator with memory } }

/-- Replaces the log settings. -/
def withSettings (s : Session) (settings : LogSettings) : Session :=
  { s with log := { s.log with settings } }

/-- Answers a request. -/
def perform (s : Session) : Request → Reply × Session
  | .load program start =>
    let s := s.report (loadEvents program start)
    match s.simulator.load program start with
    | .ok simulator => (.loaded program.length, { s with simulator })
    | .error e => (.failed (.load e), s)
  | .loadMemory bytes start =>
    let s := s.report (loadEvents bytes start)
    match s.simulator.memory.load bytes start with
    | .ok memory => (.loaded bytes.length, s.withMemory memory)
    | .error e => (.failed (.load e), s)
  | .decode address stop =>
    let result := Machine8086.decode s.simulator.memory address stop
    let s := s.report (decodeEvents result)
    match result with
    | .ok d => (.decoded d, s)
    | .error e => (.failed (.decode e), s)
  | .estimate instruction =>
    let s := s.report instruction.clockEvents
    match instruction.estimate with
    | .ok clocks => (.estimated clocks, s)
    | .error e => (.failed e, s)
  | .disassemble =>
    let listing := s.simulator.listing
    let s := s.report listing.events
    match listing.disassembly with
    | .ok text => (.listing text, s)
    | .error e => (.failed (.write (.listing e)), s)
  | .disassembleTo capacity =>
    let listing := s.simulator.listing
    -- a writer without a limit takes the whole text
    let capacity := capacity.getD listing.text.length
    (.written (listing.writeTo capacity), s.report (listing.writeEvents capacity))
  | .step count =>
    let (steps, failure, simulator) := s.simulator.stepMany count
    let s := { s with simulator }.report (steps.flatMap Step.events)
    match failure with
    | none => (.stepped steps none, s)
    | some e => (.stepped steps (some (.ofStep e)), s.report e.events)
  | .run config =>
    let result := s.simulator.runLogged config s.log
    -- the steps before a failure stay carried out
    let s := { s with simulator := result.simulator, log := result.report }
    match result.outcome with
    | .ok summary => (.ran summary, s)
    | .error e => (.failed e, s)
  | .trace config =>
    let result := s.simulator.traceLogged config s.log
    (.traced result.report.1 result.outcome,
      { s with simulator := result.simulator, log := result.report.2 })
  | .execute instruction =>
    -- nothing is fetched, so the instruction pointer counts as standing past the instruction
    match effect s.simulator.memory s.simulator.cpu instruction with
    | .ok e =>
      let s := s.report (e.events s.simulator.cpu.ip)
      (.done, (s.withMemory (e.onMemory s.simulator.memory)).withCpu (e.onCpu s.simulator.cpu))
    | .error e => (.failed (.execute e), s)
  | .resetCpu => (.done, { s with simulator := s.simulator.resetCpu })
  | .setRegister r value => (.done, s.withCpu (s.simulator.cpu.write r value))
  | .setIp value => (.done, s.withCpu { s.simulator.cpu with ip := value })
  | .setFlags flags => (.done, s.withCpu { s.simulator.cpu with flags })
  | .writeByte address value => (.done, s.withMemory (s.simulator.memory.write address value))
  | .writeWord address value => (.done, s.withMemory (s.simulator.memory.writeWord address value))
  | .writeBytes address bytes => (.done, s.withMemory (s.simulator.memory.writeBytes address bytes))
  | .saveState =>
    let snapshot := Snapshot.ofState s.simulator.cpu
    (.saved snapshot, { s with saved := snapshot })
  | .restoreState => restore s s.saved
  | .loadState snapshot => restore s snapshot
  | .setGlobalLevel level => (.done, s.withSettings { s.log.settings with global := level })
  | .setLevel category level => (.done, s.withSettings (s.log.settings.setOwn category level))
  | .resetLevels => (.done, s.withSettings {})
  | .message entry =>
    (.logged (s.log.settings.allows entry.category entry.level), { s with log := s.log.put entry })
  | .openLogFile => (.done, { s with log := s.log.openFile })
  | .closeLogFile =>
    let (log, lines) := s.log.closeFile
    (.logFile lines, { s with log })
where
  restore (s : Session) (snapshot : Json) : Reply × Session :=
    match s.simulator.loadState snapshot with
    | .ok simulator => (.done, { s with simulator })
    | .error e => (.failed (.snapshot e), s)

/-- Answers requests in order. -/
def performAll (s : Session) : List Request → List Reply × Session
  | [] => ([], s)
  | request :: requests =>
    let (reply, s) := s.perform request
    let (replies, s) := s.performAll requests
    (reply :: replies, s)

end Session

end Machine8086
