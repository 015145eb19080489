import Machine8086.Simulator

/-!
# Runs

A run repeats steps until the instruction pointer leaves the program, the step limit is reached or
an instruction fails. Reports of the executed steps are folded into a value of any type, so that a
run can be counted, printed or listed as it goes (`runWith`).

Steps and clocks are counted with 64 bits. The total of clocks wraps around. The step counter does
not: a run without a limit is cut off at the step for which the counter has no room, and
`Ending.counterFull` tells this apart from every other ending.
-/

namespace Machine8086

/-- Options of a run. -/
structure RunConfig where
  estimateClocks : Bool := false
  stepLimit : Option Nat := none
  deriving DecidableEq, Repr, Inhabited

/-- Why a run ended. -/
inductive Ending where
  | leftProgram
  | limitReached
  /-- The step at the instruction pointer failed; it changed nothing. -/
  | stepFailed (error : StepError)
  /-- The step was carried out, but clocks were asked for and it has no estimate. -/
  | estimateFailed (step : Step)
  /-- The step was carried out, but the step counter has no room for it. -/
  | counterFull (step : Step)
  deriving DecidableEq, Repr

/-- The state of a run: the simulator, the report so far, and the counts. -/
structure Progress (ρ : Type) where
  simulator : Simulator
  report : ρ
  steps : Nat := 0
  clocks : Option UInt64

/-- What a successful run ends with. Its counts are the numbers that the counters of 64 bits stand
for. -/
structure RunSummary where
  registers : Cpu
  steps : Nat
  totalClocks : Option Nat
  deriving DecidableEq, Repr

/-- How many numbers the step counter has. -/
def counterRange : Nat := Nat.pow 2 64

namespace RunConfig

/-- The number of steps a run may report. -/
def budget (config : RunConfig) : Nat := config.stepLimit.getD (counterRange - 1)

/-- Whether a run that may report so many steps more has reached its limit. -/
def spent (config : RunConfig) : Nat → Bool
  | 0 => config.stepLimit.isSome
  | _ + 1 => false

/-- The form in which a run reports a step: with its clocks if they are estimated, and not at all if
there is no estimate. -/
def reported? (config : RunConfig) (step : Step) : Option Step :=
  if config.estimateClocks then
    step.instruction.clocks?.map fun clocks => { step with clocks := some clocks }
  else some step

end RunConfig

namespace Progress

variable {ρ : Type}

/-- Adds an executed step to the report and the counts. -/
def add (onStep : ρ → Step → ρ) (p : Progress ρ) (step : Step) : Progress ρ :=
  { simulator := p.simulator.commit step
    report := onStep p.report step
    steps := p.steps + 1
    clocks := p.clocks.map (· + UInt64.ofNat (step.clocks.getD 0)) }

/-- The summary of the run so far. -/
def summary (p : Progress ρ) : RunSummary :=
  ⟨p.simulator.cpu, p.steps, p.clocks.map UInt64.toNat⟩

end Progress

/-- A run that has ended. -/
structure RunResult (ρ : Type) extends Progress ρ where
  ending : Ending

namespace Progress

variable {ρ : Type}

/-- Ends a run. -/
def stop (p : Progress ρ) (ending : Ending) : RunResult ρ := { p with ending }

/-- Ends a run with a step that is carried out and not reported. -/
def stopAfter (p : Progress ρ) (step : Step) (ending : Ending) : RunResult ρ :=
  { p with simulator := p.simulator.commit step, ending }

/-- Continues a run that may report so many steps more. -/
def proceed (config : RunConfig) (onStep : ρ → Step → ρ) : Nat → Progress ρ → RunResult ρ
  | budget, p =>
    if p.simulator.inProgram then
      -- the limit counts only while there is something left to execute
      if config.spent budget then p.stop .limitReached
      else
        match p.simulator.preview p.simulator.programEnd with
        | .error e => p.stop (.stepFailed e)
        | .ok step =>
          match config.reported? step with
          -- the step has been carried out by the time its clocks are asked for
          | none => p.stopAfter step (.estimateFailed step)
          | some reported =>
            match budget with
            | 0 => p.stopAfter step (.counterFull step)
            | budget + 1 => proceed config onStep budget (p.add onStep reported)
    else p.stop .leftProgram

end Progress

/-- Runs the program, folding the executed steps into a report. -/
def Simulator.runWith {ρ : Type} (s : Simulator) (config : RunConfig) (onStep : ρ → Step → ρ)
    (report : ρ) : RunResult ρ :=
  Progress.proceed config onStep config.budget
    { simulator := s, report, clocks := if config.estimateClocks then some 0 else none }

/-- Runs the program and lists the executed steps. -/
def Simulator.trace (s : Simulator) (config : RunConfig) : RunResult (List Step) :=
  let result := s.runWith config (fun steps step => step :: steps) []
  { result with report := result.report.reverse }

end Machine8086
