import Machine8086.Proofs.Run
import Machine8086.Session

/-!
# Runs and single steps

A run decodes within its program and a single step within the whole of memory. They take the same
steps all the same: what a run reports are the single steps that lead to where it stops
(`Simulator.Path.steps`), and these are the steps that are taken when so many are asked for at once
(`Simulator.steps_iff_stepMany`). A run that succeeds ends there, at its limit or out of the program
(`run_refines_step`). A run that fails ends there too, unless it fails for want of an estimate; then
one more step has been carried out that was not reported (`failed_run_state`).
-/

namespace Machine8086

namespace Simulator

/-- Single steps that succeed, one after the other. -/
inductive Steps : Simulator → List Step → Simulator → Prop
  | nil (s : Simulator) : Steps s [] s
  | cons {s next final : Simulator} {step : Step} {steps : List Step}
      (first : s.step = .ok (step, next)) (rest : Steps next steps final) :
      Steps s (step :: steps) final

/-- Single steps one after the other are the steps that are taken when so many are asked for. -/
theorem steps_iff_stepMany {s final : Simulator} {steps : List Step} :
    s.Steps steps final ↔ s.stepMany steps.length = (steps, none, final) := by
  induction steps generalizing s with
  | nil =>
    constructor
    · intro h
      cases h
      rfl
    · intro h
      cases h
      exact .nil _
  | cons step steps ih =>
    rw [List.length_cons, stepMany]
    constructor
    · intro h
      cases h with
      | cons first rest =>
        obtain ⟨hpreview, rfl⟩ := (step_eq_ok_iff ..).1 first
        rw [hpreview]
        dsimp only
        rw [ih.1 rest]
    · intro h
      cases hpreview : s.preview addressSpace with
      | error e =>
        rw [hpreview] at h
        cases h
      | ok step' =>
        rw [hpreview] at h
        simp only [Prod.mk.injEq, List.cons.injEq] at h
        obtain ⟨⟨rfl, hsteps⟩, hfailure, hfinal⟩ := h
        refine .cons ((step_eq_ok_iff ..).2 ⟨hpreview, rfl⟩) (ih.2 ?_)
        exact Prod.ext hsteps (Prod.ext hfailure hfinal)

namespace Path

variable {config : RunConfig} {s final : Simulator} {reported : List Step}

/-- The steps of a path are single steps, the clocks apart. -/
theorem steps (h : s.Path config reported final) :
    s.Steps (reported.map Step.withoutClocks) final := by
  induction h with
  | nil s => exact .nil s
  | cons turn rest ih => exact .cons (step_eq_of_preview turn.preview) ih

/-- The processor is as the last step of the path left it. -/
theorem cpu_eq (h : s.Path config reported final) :
    final.cpu = (reported.getLast?.map Step.after).getD s.cpu := by
  induction h with
  | nil s => rfl
  | @cons s final step steps turn rest ih =>
    rw [ih, List.getLast?_cons]
    cases steps.getLast? with
    | none => rfl
    | some last => rfl

end Path

end Simulator

/-- A run that succeeds is a sequence of single steps. Whatever its steps are reported to, the
single steps succeed one after the other, they are the reported steps, the clocks apart, and they
lead to the same processor and memory; and their number is the step limit, unless the instruction
pointer is outside the program. -/
theorem run_refines_step {ρ : Type} {s : Simulator} {config : RunConfig} {onStep : ρ → Step → ρ}
    {report : ρ} {summary : RunSummary}
    (h : (s.runWith config onStep report).outcome = .ok summary) :
    let result := s.runWith config onStep report
    let reported := (s.trace config).report
    result.report = reported.foldl onStep report ∧
      s.Steps (reported.map Step.withoutClocks) result.simulator ∧
      reported.length = summary.steps ∧
      result.simulator.cpu = summary.registers ∧
      (config.stepLimit = some summary.steps ∨
        ¬ (s.programStart.toNat ≤ summary.registers.ip.toNat ∧
          summary.registers.ip.toNat < s.programEnd)) := by
  obtain ⟨steps, reached, final, ending, hpath, hlength, hstops⟩ :=
    Simulator.exists_path config config.budget s
  rw [Simulator.trace_eq_of_path hpath hlength hstops]
  rw [Simulator.runWith_eq_of_path onStep report hpath hlength hstops] at h ⊢
  generalize hleft : config.budget - steps.length = left at hstops
  cases hstops with
  | left hin =>
    cases h
    refine ⟨rfl, hpath.steps, rfl, rfl, .inr ?_⟩
    rw [← hpath.programStart_eq, ← hpath.programEnd_eq]
    exact fun hextent => Bool.eq_false_iff.1 hin ((Simulator.inProgram_iff _).2 hextent)
  | spent hin hspent =>
    cases h
    obtain ⟨rfl, limit, hlimit⟩ := RunConfig.spent_eq_true_iff.1 hspent
    rw [RunConfig.budget, hlimit, Option.getD_some] at hlength hleft
    obtain rfl : steps.length = limit := by omega
    exact ⟨rfl, hpath.steps, rfl, rfl, .inl hlimit⟩
  | failed hin hgoes hpreview => cases h
  | unestimated hin hgoes hpreview hreported => cases h
  | uncounted hgoes turn => cases h

/-- Loaded at 0, `mov ax, 5` is run in one step, which is a single step as well. -/
theorem run_refines_step_mov :
    ∃ s : Simulator, Simulator.load {} [0xB8, 0x05, 0x00] 0 = .ok s ∧
      (s.trace {}).outcome = .ok ⟨{ ax := 5, ip := 3 }, 1, none⟩ ∧
      s.Steps ((s.trace {}).report.map Step.withoutClocks) (s.trace {}).simulator := by
  obtain ⟨s, hload, houtcome⟩ : ∃ s : Simulator,
      Simulator.load {} [0xB8, 0x05, 0x00] 0 = .ok s ∧
        (s.trace {}).outcome = .ok ⟨{ ax := 5, ip := 3 }, 1, none⟩ := ⟨_, rfl, rfl⟩
  exact ⟨s, hload, houtcome, (run_refines_step houtcome).2.1⟩

/-- A run that fails has taken the single steps that it reports, and the processor is then as the
last of them left it. There the next step fails and changes nothing; or the next step is carried
out, but clocks are asked for and it has no estimate; or it is carried out, but there is no limit,
and the counter has no room for it after the steps that are reported. -/
theorem failed_run_state {ρ : Type} {s : Simulator} {config : RunConfig} {onStep : ρ → Step → ρ}
    {report : ρ} {failure : Failure}
    (h : (s.runWith config onStep report).outcome = .error failure) :
    let result := s.runWith config onStep report
    let reported := (s.trace config).report
    result.report = reported.foldl onStep report ∧
      ∃ reached, s.Steps (reported.map Step.withoutClocks) reached ∧
        reached.cpu = (reported.getLast?.map Step.after).getD s.cpu ∧
        (result.simulator = reached ∧
            (∃ e, failure = .ofStep e ∧ reached.preview reached.programEnd = .error e) ∨
          config.estimateClocks = true ∧
            (∃ step, reached.step = .ok (step, result.simulator) ∧
              step.instruction.clocks? = none ∧
              failure = .estimate step.instruction.operation) ∨
          failure = .counterFull ∧ config.stepLimit = none ∧ reported.length + 1 = counterRange ∧
            ∃ step, reached.step = .ok (step, result.simulator)) := by
  obtain ⟨steps, reached, final, ending, hpath, hlength, hstops⟩ :=
    Simulator.exists_path config config.budget s
  rw [Simulator.trace_eq_of_path hpath hlength hstops]
  rw [Simulator.runWith_eq_of_path onStep report hpath hlength hstops] at h ⊢
  refine ⟨rfl, reached, hpath.steps, hpath.cpu_eq, ?_⟩
  generalize hleft : config.budget - steps.length = left at hstops
  cases hstops with
  | left hin => cases h
  | spent hin hspent => cases h
  | @failed _ _ e hin hgoes hpreview =>
    cases h
    exact .inl ⟨rfl, e, rfl, hpreview⟩
  | @unestimated _ _ step hin hgoes hpreview hreported =>
    cases h
    rw [RunConfig.reported?] at hreported
    split at hreported
    case isTrue hestimate =>
      exact .inr (.inl ⟨hestimate, step, Simulator.step_eq_of_preview hpreview,
        Option.map_eq_none_iff.1 hreported, rfl⟩)
    case isFalse => cases hreported
  | @uncounted _ step hgoes turn =>
    cases h
    have hlimit := RunConfig.spent_zero_eq_false_iff.1 hgoes
    have hfull := RunConfig.add_one_eq_counterRange hlimit hlength hleft
    exact .inr (.inr ⟨rfl, hlimit, hfull, step.withoutClocks,
      Simulator.step_eq_of_preview turn.preview⟩)

/-- Behind `mov ax, 5` stands a byte that starts no instruction; the run fails there and has the
state of the move. -/
theorem failed_run_state_unknown :
    ∃ s : Simulator, Simulator.load {} [0xB8, 0x05, 0x00, 0x90] 0 = .ok s ∧
      (s.trace {}).outcome = .error (.decode (.unknownOpcode 0x90 3)) ∧
      ∃ reached, s.Steps ((s.trace {}).report.map Step.withoutClocks) reached ∧
        reached.cpu = { ax := 5, ip := 3 } := by
  obtain ⟨s, hload, houtcome, hlast⟩ : ∃ s : Simulator,
      Simulator.load {} [0xB8, 0x05, 0x00, 0x90] 0 = .ok s ∧
        (s.trace {}).outcome = .error (.decode (.unknownOpcode 0x90 3)) ∧
        ((s.trace {}).report.getLast?.map Step.after).getD s.cpu = { ax := 5, ip := 3 } :=
    ⟨_, rfl, rfl, rfl⟩
  obtain ⟨-, reached, hsteps, hcpu, -⟩ := failed_run_state houtcome
  exact ⟨s, hload, houtcome, reached, hsteps, hcpu.trans hlast⟩

/-- A comparison that has no estimate is carried out by a run that fails for it: nothing is
reported, but the instruction pointer is past the comparison. -/
theorem unestimated_step_keeps_effect :
    ∃ s : Simulator, Simulator.load {} [0x39, 0xD8] 0 = .ok s ∧
      (s.trace { estimateClocks := true }).outcome = .error (.estimate .cmp) ∧
      (s.trace { estimateClocks := true }).report = [] ∧
      s.cpu.ip = 0 ∧ (s.trace { estimateClocks := true }).simulator.cpu.ip = 2 :=
  ⟨_, rfl, rfl, rfl, rfl, rfl⟩

end Machine8086
