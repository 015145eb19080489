import Machine8086.Proofs.Simulator
import Machine8086.Run

/-!
# Runs as paths

A run is a path of reported steps (`Simulator.Path`), each the step that is due in the program
(`Simulator.Turn`), up to a simulator in which it stops (`Simulator.Stops`). Every run is of this
form (`Simulator.trace_path`), and a path that ends where the run stops is what the run returns
(`Simulator.trace_eq_of_path`). Whatever the steps are reported to, they are the same steps and the
run ends alike (`Simulator.runWith_eq_trace`).
-/

namespace Machine8086

/-! ## Budgets and reported steps -/

/-- A step as it is without an estimate. -/
def Step.withoutClocks (s : Step) : Step := { s with clocks := none }

/-- The clocks of steps. -/
def clocksOf (steps : List Step) : Nat := (steps.map fun step => step.clocks.getD 0).sum

@[simp] theorem clocksOf_nil : clocksOf [] = 0 := rfl

@[simp] theorem clocksOf_cons (step : Step) (steps : List Step) :
    clocksOf (step :: steps) = step.clocks.getD 0 + clocksOf steps := List.sum_cons

/-- So many clocks as the total that a run has of them, if it estimates. -/
def RunConfig.clockTotal (config : RunConfig) (clocks : Nat) : Option UInt64 :=
  if config.estimateClocks then some (UInt64.ofNat clocks) else none

/-- The limit, if there is one, allows so many steps. -/
def RunConfig.Allows (config : RunConfig) (n : Nat) : Prop :=
  ∀ limit, config.stepLimit = some limit → n ≤ limit

theorem RunConfig.Allows.of_le {config : RunConfig} {m n : Nat} (h : config.Allows n)
    (hle : m ≤ n) : config.Allows m :=
  fun limit hsome => Nat.le_trans hle (h limit hsome)

/-- A run may report a number of steps that its limit and its counter allow. -/
theorem RunConfig.le_budget {config : RunConfig} {n : Nat} (hlimit : config.Allows n)
    (hcounter : n < counterRange) : n ≤ config.budget := by
  rw [budget]
  cases hsome : config.stepLimit with
  | some limit => exact hlimit limit hsome
  | none => exact Nat.le_sub_one_of_lt hcounter

theorem RunConfig.allows_of_le_budget {config : RunConfig} {n : Nat} (h : n ≤ config.budget) :
    config.Allows n := by
  intro limit hsome
  rwa [budget, hsome, Option.getD_some] at h

theorem RunConfig.spent_eq_true_iff {config : RunConfig} {budget : Nat} :
    config.spent budget = true ↔ budget = 0 ∧ ∃ limit, config.stepLimit = some limit := by
  cases budget with
  | zero => simp [spent, Option.isSome_iff_exists]
  | succ budget => simp [spent]

/-- A run that may report no step more goes on only without a limit. -/
theorem RunConfig.spent_zero_eq_false_iff {config : RunConfig} :
    config.spent 0 = false ↔ config.stepLimit = none := by
  rw [spent, Option.isSome_eq_false_iff, Option.isNone_iff_eq_none]

/-- A run that goes on goes on with every larger budget. -/
theorem RunConfig.spent_of_le {config : RunConfig} {budget budget' : Nat}
    (h : config.spent budget = false) (hle : budget ≤ budget') : config.spent budget' = false := by
  cases budget' with
  | zero => rwa [Nat.le_zero.1 hle] at h
  | succ budget' => rfl

/-- Without a limit, a run that may report no step more has filled the counter. -/
theorem RunConfig.add_one_eq_counterRange {config : RunConfig} {n : Nat}
    (hlimit : config.stepLimit = none) (hle : n ≤ config.budget) (hleft : config.budget - n = 0) :
    n + 1 = counterRange := by
  have hcounter : counterRange = 2 ^ 64 := rfl
  rw [budget, hlimit, Option.getD_none] at hle hleft
  omega

/-- With a limit, a run that has not reached it may report one step more. -/
theorem RunConfig.pos_of_spent {config : RunConfig} {budget limit : Nat}
    (hlimit : config.stepLimit = some limit) (h : config.spent budget = false) : 0 < budget := by
  refine Nat.pos_of_ne_zero fun hzero => ?_
  exact Bool.eq_false_iff.1 h (spent_eq_true_iff.2 ⟨hzero, limit, hlimit⟩)

theorem RunConfig.allows_of_spent {config : RunConfig} {steps : Nat}
    (h : config.spent (config.budget - steps) = false) : config.Allows (steps + 1) := by
  intro limit hsome
  have hleft := pos_of_spent hsome h
  rw [budget, hsome, Option.getD_some] at hleft
  exact Nat.lt_of_sub_pos hleft

theorem RunConfig.reported?_of_plain {config : RunConfig} (h : config.estimateClocks = false)
    (step : Step) : config.reported? step = some step := by
  rw [reported?, h]
  rfl

theorem RunConfig.withoutClocks_of_reported? {config : RunConfig} {step reported : Step}
    (h : config.reported? step = some reported) :
    reported.withoutClocks = step.withoutClocks := by
  rw [reported?] at h
  split at h
  case isTrue =>
    obtain ⟨clocks, -, rfl⟩ := Option.map_eq_some_iff.1 h
    rfl
  case isFalse =>
    cases h
    rfl

namespace Simulator

variable (config : RunConfig)

/-- The next turn of a run executes a step in the program and reports it. -/
structure Turn (s : Simulator) (reported : Step) : Prop where
  inProgram : s.inProgram = true
  preview : s.preview s.programEnd = .ok reported.withoutClocks
  reported : config.reported? reported.withoutClocks = some reported

/-- A sequence of turns with the steps that they report. -/
inductive Path : Simulator → List Step → Simulator → Prop
  | nil (s : Simulator) : Path s [] s
  | cons {s final : Simulator} {step : Step} {steps : List Step} (turn : s.Turn config step)
      (rest : Path (s.commit step) steps final) : Path s (step :: steps) final

/-- With this budget left, a run reports no more steps and ends. -/
inductive Stops : Nat → Simulator → Simulator → Ending → Prop
  | left {budget : Nat} {s : Simulator} (h : s.inProgram = false) : Stops budget s s .leftProgram
  | spent {budget : Nat} {s : Simulator} (h : s.inProgram = true)
      (hspent : config.spent budget = true) : Stops budget s s .limitReached
  | failed {budget : Nat} {s : Simulator} {e : StepError} (h : s.inProgram = true)
      (hgoes : config.spent budget = false) (hpreview : s.preview s.programEnd = .error e) :
      Stops budget s s (.stepFailed e)
  | unestimated {budget : Nat} {s : Simulator} {step : Step} (h : s.inProgram = true)
      (hgoes : config.spent budget = false) (hpreview : s.preview s.programEnd = .ok step)
      (hreported : config.reported? step = none) :
      Stops budget s (s.commit step) (.estimateFailed step)
  /-- The step is a turn of the run, but it cannot be counted. -/
  | uncounted {s : Simulator} {step : Step} (hgoes : config.spent 0 = false)
      (turn : s.Turn config step) :
      Stops 0 s (s.commit step) (.counterFull step.withoutClocks)

variable {config}

theorem Turn.of_reported? {s : Simulator} {step reported : Step} (h : s.inProgram = true)
    (hpreview : s.preview s.programEnd = .ok step)
    (hreported : config.reported? step = some reported) :
    s.Turn config reported ∧ s.commit reported = s.commit step := by
  have hclocks := ((preview_eq_ok_iff ..).1 hpreview).clocks
  have hplain : reported.withoutClocks = step := by
    rw [config.withoutClocks_of_reported? hreported, Step.withoutClocks, ← hclocks]
  refine ⟨⟨h, ?_, ?_⟩, ?_⟩
  · rw [hplain, hpreview]
  · rw [hplain, hreported]
  · rw [← hplain]
    rfl

/-- Without estimates every step in the program is a turn. -/
theorem Turn.of_isStep {s : Simulator} {step : Step} (hestimate : config.estimateClocks = false)
    (h : s.inProgram = true) (hstep : s.IsStep s.programEnd step) : s.Turn config step :=
  (Turn.of_reported? h ((preview_eq_ok_iff ..).2 hstep)
    (RunConfig.reported?_of_plain hestimate step)).1

theorem Turn.isStep {s : Simulator} {step : Step} (h : s.Turn config step) :
    s.IsStep s.programEnd step.withoutClocks :=
  (preview_eq_ok_iff ..).1 h.preview

namespace Path

variable {s final : Simulator} {steps : List Step}

theorem programStart_eq (h : s.Path config steps final) : final.programStart = s.programStart := by
  induction h with
  | nil s => rfl
  | cons turn rest ih => exact ih

theorem programEnd_eq (h : s.Path config steps final) : final.programEnd = s.programEnd := by
  induction h with
  | nil s => rfl
  | cons turn rest ih => exact ih

end Path

/-! ## The run loop takes the path -/

/-- A run stops, or its next step is a turn. -/
theorem stops_or_turn (config : RunConfig) (budget : Nat) (s : Simulator) :
    (∃ final ending, s.Stops config budget final ending) ∨
      config.spent budget = false ∧ ∃ step, s.Turn config step := by
  cases hin : s.inProgram with
  | false => exact .inl ⟨_, _, .left hin⟩
  | true =>
    cases hspent : config.spent budget with
    | true => exact .inl ⟨_, _, .spent hin hspent⟩
    | false =>
      cases hpreview : s.preview s.programEnd with
      | error e => exact .inl ⟨_, _, .failed hin hspent hpreview⟩
      | ok step =>
        cases hreported : config.reported? step with
        | none => exact .inl ⟨_, _, .unestimated hin hspent hpreview hreported⟩
        | some reported =>
          exact .inr ⟨rfl, reported, (Turn.of_reported? hin hpreview hreported).1⟩

/-- From every simulator there is a path within the budget to a place where the run stops. -/
theorem exists_path (config : RunConfig) (budget : Nat) (s : Simulator) :
    ∃ steps reached final ending, s.Path config steps reached ∧ steps.length ≤ budget ∧
      reached.Stops config (budget - steps.length) final ending := by
  induction budget generalizing s with
  | zero =>
    rcases s.stops_or_turn config 0 with ⟨final, ending, hstops⟩ | ⟨hgoes, step, turn⟩
    · exact ⟨[], s, final, ending, .nil s, Nat.le_refl 0, hstops⟩
    · exact ⟨[], s, _, _, .nil s, Nat.le_refl 0, .uncounted hgoes turn⟩
  | succ budget ih =>
    rcases s.stops_or_turn config (budget + 1) with ⟨final, ending, hstops⟩ | ⟨-, step, turn⟩
    · exact ⟨[], s, final, ending, .nil s, Nat.zero_le _, hstops⟩
    · obtain ⟨steps, reached, final, ending, hpath, hlength, hstops⟩ := ih (s.commit step)
      refine ⟨step :: steps, reached, final, ending, .cons turn hpath, ?_, ?_⟩
      · simpa using hlength
      · simpa using hstops

end Simulator

namespace Progress

variable {ρ : Type} {config : RunConfig} (onStep : ρ → Step → ρ)

theorem proceed_of_turn {p : Progress ρ} {step : Step} (h : p.simulator.Turn config step)
    (budget : Nat) :
    p.proceed config onStep (budget + 1) = (p.add onStep step).proceed config onStep budget := by
  rw [proceed, if_pos h.inProgram, RunConfig.spent, if_neg Bool.false_ne_true, h.preview]
  dsimp only
  rw [h.reported]

/-- A path adds its steps, one after the other, and its clocks. -/
theorem proceed_of_path {p : Progress ρ} {reached : Simulator} {steps : List Step}
    (h : p.simulator.Path config steps reached) (budget : Nat) :
    p.proceed config onStep (budget + steps.length) =
      Progress.proceed config onStep budget
        { simulator := reached
          report := steps.foldl onStep p.report
          steps := p.steps + steps.length
          clocks := p.clocks.map (· + UInt64.ofNat (clocksOf steps)) } := by
  obtain ⟨s, report, count, clocks⟩ := p
  dsimp only at h ⊢
  induction h generalizing report count clocks with
  | nil s => simp
  | @cons s final step steps turn rest ih =>
    rw [List.length_cons, ← Nat.add_assoc, proceed_of_turn onStep turn, add, ih]
    simp [Function.comp_def, Nat.add_assoc, Nat.add_comm 1, UInt64.add_assoc]

theorem proceed_of_stops {p : Progress ρ} {final : Simulator} {budget : Nat} {ending : Ending}
    (h : p.simulator.Stops config budget final ending) :
    p.proceed config onStep budget = { p with simulator := final, ending := ending } := by
  obtain ⟨s, report, count, clocks⟩ := p
  dsimp only at h ⊢
  rw [proceed.eq_def]
  dsimp only
  cases h with
  | left hin =>
    rw [if_neg (by simp [hin])]
    rfl
  | spent hin hspent =>
    rw [if_pos hin, if_pos hspent]
    rfl
  | failed hin hgoes hpreview =>
    rw [if_pos hin, if_neg (by simp [hgoes]), hpreview]
    rfl
  | unestimated hin hgoes hpreview hreported =>
    rw [if_pos hin, if_neg (by simp [hgoes]), hpreview]
    dsimp only
    rw [hreported]
    rfl
  | uncounted hgoes turn =>
    rw [if_pos turn.inProgram, if_neg (by simp [hgoes]), turn.preview]
    dsimp only
    rw [turn.reported]
    rfl

end Progress

namespace Simulator

variable {config : RunConfig}

/-- A path to a place where the run stops is the run, whatever the steps are reported to. -/
theorem runWith_eq_of_path {ρ : Type} {s reached final : Simulator} {steps : List Step}
    {ending : Ending} (onStep : ρ → Step → ρ) (report : ρ) (hpath : s.Path config steps reached)
    (hlength : steps.length ≤ config.budget)
    (hstops : reached.Stops config (config.budget - steps.length) final ending) :
    s.runWith config onStep report =
      { simulator := final
        report := steps.foldl onStep report
        steps := steps.length
        clocks := config.clockTotal (clocksOf steps)
        ending := ending } := by
  obtain ⟨rest, hbudget⟩ := Nat.exists_eq_add_of_le' hlength
  rw [hbudget, Nat.add_sub_cancel] at hstops
  rw [runWith, hbudget]
  refine (Progress.proceed_of_path onStep hpath rest).trans ?_
  refine (Progress.proceed_of_stops onStep hstops).trans ?_
  rw [RunConfig.clockTotal]
  cases config.estimateClocks <;> simp

theorem trace_eq_of_path {s reached final : Simulator} {steps : List Step} {ending : Ending}
    (hpath : s.Path config steps reached) (hlength : steps.length ≤ config.budget)
    (hstops : reached.Stops config (config.budget - steps.length) final ending) :
    s.trace config =
      { simulator := final
        report := steps
        steps := steps.length
        clocks := config.clockTotal (clocksOf steps)
        ending := ending } := by
  rw [trace, runWith_eq_of_path _ _ hpath hlength hstops]
  simp

/-- Every run is a path to a place where it stops. -/
theorem trace_path (s : Simulator) (config : RunConfig) :
    ∃ reached, s.Path config (s.trace config).report reached ∧
      (s.trace config).report.length ≤ config.budget ∧
      reached.Stops config (config.budget - (s.trace config).report.length)
        (s.trace config).simulator (s.trace config).ending := by
  obtain ⟨steps, reached, final, ending, hpath, hlength, hstops⟩ :=
    exists_path config config.budget s
  rw [trace_eq_of_path hpath hlength hstops]
  exact ⟨reached, hpath, hlength, hstops⟩

/-- Runs differ only in what they make of the steps that they report. -/
theorem runWith_eq_trace {ρ : Type} (s : Simulator) (config : RunConfig) (onStep : ρ → Step → ρ)
    (report : ρ) :
    s.runWith config onStep report =
      { s.trace config with report := (s.trace config).report.foldl onStep report } := by
  obtain ⟨steps, reached, final, ending, hpath, hlength, hstops⟩ :=
    exists_path config config.budget s
  rw [trace_eq_of_path hpath hlength hstops, runWith_eq_of_path onStep report hpath hlength hstops]

/-- A run that fills its step counter stops at a turn. -/
theorem Stops.exists_turn_of_counterFull {budget : Nat} {s final : Simulator} {step : Step}
    (h : s.Stops config budget final (.counterFull step)) : ∃ reported, s.Turn config reported := by
  cases h with
  | uncounted hgoes turn => exact ⟨_, turn⟩

/-- Only a run without a limit fills its step counter. -/
theorem trace_of_counterFull {s : Simulator} {step : Step}
    (h : (s.trace config).ending = .counterFull step) :
    config.stepLimit = none ∧ (s.trace config).report.length + 1 = counterRange := by
  obtain ⟨reached, -, hlength, hstops⟩ := s.trace_path config
  rw [h] at hstops
  generalize hleft : config.budget - (s.trace config).report.length = left at hstops
  generalize (s.trace config).simulator = final at hstops
  cases hstops with
  | uncounted hgoes turn =>
    have hlimit := RunConfig.spent_zero_eq_false_iff.1 hgoes
    exact ⟨hlimit, RunConfig.add_one_eq_counterRange hlimit hlength hleft⟩

/-- A run counts the steps that it reports. -/
theorem steps_trace (s : Simulator) (config : RunConfig) :
    (s.trace config).steps = (s.trace config).report.length := by
  obtain ⟨steps, reached, final, ending, hpath, hlength, hstops⟩ :=
    exists_path config config.budget s
  rw [trace_eq_of_path hpath hlength hstops]

/-- A run that estimates adds up the clocks of the steps that it reports. -/
theorem clocks_trace (s : Simulator) (config : RunConfig) :
    (s.trace config).clocks = config.clockTotal (clocksOf (s.trace config).report) := by
  obtain ⟨steps, reached, final, ending, hpath, hlength, hstops⟩ :=
    exists_path config config.budget s
  rw [trace_eq_of_path hpath hlength hstops]

end Simulator

end Machine8086
