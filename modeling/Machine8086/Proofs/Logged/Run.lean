import Machine8086.Proofs.Checked.Run
import Machine8086.Proofs.Logged.Simulator

/-!
# Runs with their log calls

A run that tells its events as they arise takes the path of the run of the model: a turn tells the
events of its step (`does_runFrom_of_turn`), and where the run stops it tells how it ends
(`does_runFrom_of_stops`). So the run of the model is told of whole (`does_run`).
-/

namespace Machine8086

/-- The estimate of a step is told last. -/
theorem Step.events_eq (step : Step) :
    step.events =
      step.withoutClocks.events ++ step.clocks.toList.map (.costed step.instruction) := by
  rw [events, events, withoutClocks, Option.toList_none, List.map_nil, List.append_nil]
  rfl

namespace Logged

open LoggedAction

variable {ε : Type} {config : RunConfig} {s reached final : Simulator}

/-- A step is reported with its clocks, if these are counted and the step has an estimate. -/
theorem does_addClocks (config : RunConfig) (step : Step) (hplain : step.clocks = none)
    (total : Nat) (s : Simulator) :
    match config.reported? step with
    | some reported => (addClocks step (config.clockTotal total)).Does s
        (.ok (reported, config.clockTotal (total + reported.clocks.getD 0))) s
        (entriesOf (reported.clocks.toList.map (.costed step.instruction)))
    | none => (addClocks step (config.clockTotal total)).Does s
        (.error (.estimate step.instruction.operation)) s [] := by
  rw [RunConfig.reported?]
  unfold RunConfig.clockTotal
  cases config.estimateClocks with
  | true =>
    have hestimate := does_estimate step.instruction s
    rw [Instruction.estimate, Instruction.clockEvents] at hestimate
    rw [if_pos rfl]
    cases hclocks : step.instruction.clocks? with
    | some clocks =>
      rw [hclocks] at hestimate
      dsimp only [Option.map_some, Option.getD_some]
      rw [if_pos rfl, if_pos rfl, UInt64.ofNat_add]
      exact hestimate.bind_silent (does_pure _ s)
    | none =>
      rw [hclocks] at hestimate
      exact hestimate.bind_of_error
  | false =>
    rw [if_neg Bool.false_ne_true]
    dsimp only
    rw [hplain]
    exact does_pure _ s

/-- The step of a turn is carried out, estimated and told of. -/
theorem does_runStep_of_turn {step : Step} (hturn : s.Turn config step) (total : Nat) :
    (runStep s.programEnd (config.clockTotal total)).Does s
      (.ok (step, config.clockTotal (total + step.clocks.getD 0))) (s.commit step)
      (entriesOf step.events) := by
  have hstep := does_stepWithin s.programEnd s
  rw [hturn.preview] at hstep
  have hclocks := does_addClocks config step.withoutClocks rfl total (s.commit step)
  rw [hturn.reported] at hclocks
  rw [step.events_eq, entriesOf_append]
  exact (hstep.mapError Failure.ofStep).bind hclocks

/-- A turn of a run tells the events of its step. -/
theorem does_runFrom_of_turn {step : Step} {budget steps total : Nat} {reported : List Step}
    {outcome : Except Failure RunSummary} {entries : List LogEntry} (hturn : s.Turn config step)
    (hrest : (runFrom config budget (steps + 1)
      (config.clockTotal (total + step.clocks.getD 0)) :
        LoggedAction ε Reported).Does (s.commit step)
      (.ok (reported, outcome)) final entries) :
    (runFrom config (budget + 1) steps (config.clockTotal total) :
        LoggedAction ε Reported).Does s
      (.ok (step :: reported, outcome)) final (entriesOf step.events ++ entries) := by
  rw [runFrom, runRound]
  apply Does.getSimulator_bind
  rw [hturn.inProgram]
  exact (does_runStep_of_turn hturn total).attempt.bind (hrest.bind_silent (does_pure _ _))

/-- A path of turns tells the events of its steps, one after the other. -/
theorem does_runFrom_of_path {path : List Step} (hpath : s.Path config path reached)
    (budget steps total : Nat) {outcome : Except Failure RunSummary} {entries : List LogEntry}
    (hrest : (runFrom config budget (steps + path.length)
      (config.clockTotal (total + clocksOf path)) :
        LoggedAction ε Reported).Does reached
      (.ok ([], outcome)) final entries) :
    (runFrom config (budget + path.length) steps (config.clockTotal total) :
        LoggedAction ε Reported).Does s
      (.ok (path, outcome)) final (entriesOf (path.flatMap Step.events) ++ entries) := by
  induction hpath generalizing steps total with
  | nil s => exact hrest
  | @cons s reached step path hturn rest ih =>
    rw [List.length_cons, clocksOf_cons, ← Nat.add_assoc total, Nat.add_comm path.length,
      ← Nat.add_assoc steps] at hrest
    rw [List.length_cons, List.flatMap_cons, entriesOf_append, List.append_assoc]
    exact does_runFrom_of_turn hturn (ih _ _ hrest)

/-- Ending a run is told of. -/
theorem does_finishRun (steps : Nat) (clocks : Option UInt64) (s : Simulator) :
    (finishRun steps clocks : LoggedAction ε RunSummary).Does s
      (.ok ⟨s.cpu, steps, clocks.map UInt64.toNat⟩) s (entriesOf [.runFinished steps]) :=
  .log_bind (.getSimulator_bind (does_pure _ s))

/-- In a run that counts clocks, a turn tells of its estimate. -/
theorem clockEvents_of_turn {step : Step} (hturn : s.Turn config step) (total : Nat) :
    (if (config.clockTotal total).isSome then step.instruction.clockEvents else []) =
      step.clocks.toList.map (.costed step.instruction) := by
  have hreported := hturn.reported
  rw [RunConfig.reported?] at hreported
  rw [RunConfig.clockTotal]
  split at hreported
  case isTrue hestimate =>
    obtain ⟨clocks, hclocks, hstep⟩ := Option.map_eq_some_iff.1 hreported
    have hinstruction : step.instruction.clocks? = some clocks := hclocks
    have hnoted : step.clocks = some clocks := congrArg Step.clocks hstep.symm
    rw [if_pos hestimate, hnoted, Instruction.clockEvents, hinstruction]
    rfl
  case isFalse hplain =>
    have hnone : step.clocks = none := congrArg Step.clocks (Option.some.inj hreported).symm
    rw [if_neg hplain, hnone]
    rfl

/-- Where the run stops, it tells how it ends; how it would go on does not matter, unless it stops
as it cannot go on. -/
theorem does_runRound_of_stops {ending : Ending} {budget : Nat}
    (hstops : s.Stops config budget final ending) (steps total : Nat)
    {rest : Option (Nat → Option UInt64 → LoggedAction ε Reported)}
    (hrest : budget = 0 → rest = none) :
    let result : RunResult Unit := ⟨⟨final, (), steps, config.clockTotal total⟩, ending⟩
    (runRound config budget steps (config.clockTotal total) rest).Does s
      (.ok ([], result.outcome)) final (entriesOf result.endEvents) := by
  rw [runRound]
  apply Does.getSimulator_bind
  cases hstops with
  | left hin =>
    rw [hin]
    exact (does_finishRun steps _ s).bind_silent (does_pure _ s)
  | spent hin hspent =>
    rw [hin, hspent]
    exact .log_bind ((does_finishRun steps _ s).bind_silent (does_pure _ s))
  | @failed _ _ e hin hgoes hpreview =>
    have hstep := does_stepWithin s.programEnd s
    rw [hpreview] at hstep
    rw [hin, hgoes]
    exact (hstep.mapError Failure.ofStep).bind_of_error.attempt.bind_silent (does_pure _ s)
  | @unestimated _ _ step hin hgoes hpreview hreported =>
    have hplain := ((Simulator.preview_eq_ok_iff ..).1 hpreview).clocks
    have hstep := does_stepWithin s.programEnd s
    rw [hpreview] at hstep
    have hclocks := does_addClocks config step hplain total (s.commit step)
    rw [hreported] at hclocks
    -- the step has been told by the time its estimate fails
    have hround : (runStep s.programEnd (config.clockTotal total)).Does s
        (.error (.estimate step.instruction.operation)) (s.commit step)
        (entriesOf step.events ++ []) := (hstep.mapError Failure.ofStep).bind hclocks
    rw [List.append_nil] at hround
    rw [hin, hgoes]
    exact hround.attempt.bind_silent (does_pure _ _)
  | @uncounted _ step hgoes turn =>
    have hround := does_runStep_of_turn turn total
    rw [step.events_eq, ← clockEvents_of_turn turn total] at hround
    rw [turn.inProgram, hgoes, hrest rfl]
    exact hround.attempt.bind_silent (does_pure _ _)

theorem does_runFrom_of_stops {ending : Ending} {budget : Nat}
    (hstops : s.Stops config budget final ending) (steps total : Nat) :
    let result : RunResult Unit := ⟨⟨final, (), steps, config.clockTotal total⟩, ending⟩
    (runFrom config budget steps (config.clockTotal total) : LoggedAction ε Reported).Does s
      (.ok ([], result.outcome)) final (entriesOf result.endEvents) := by
  cases budget with
  | zero => exact does_runRound_of_stops hstops steps total fun _ => rfl
  | succ budget => exact does_runRound_of_stops hstops steps total nofun

/-- A run reports the steps of the model, ends as that ends and tells the same events. -/
theorem does_run (config : RunConfig) (s : Simulator) :
    (run config : LoggedAction ε Reported).Does s
      (.ok ((s.trace config).report, (s.trace config).outcome)) (s.trace config).simulator
      (entriesOf ((s.trace config).report.flatMap Step.events) ++
        entriesOf (s.trace config).endEvents) := by
  obtain ⟨path, reached, final, ending, hpath, hlength, hstops⟩ :=
    Simulator.exists_path config config.budget s
  rw [Simulator.trace_eq_of_path hpath hlength hstops]
  obtain ⟨rest, hbudget⟩ := Nat.exists_eq_add_of_le' hlength
  rw [hbudget, Nat.add_sub_cancel] at hstops
  have hend := @does_runFrom_of_stops ε _ _ _ _ _ hstops (0 + path.length)
    (0 + clocksOf path)
  have hrun := does_runFrom_of_path hpath rest 0 0 hend
  rw [← hbudget, Nat.zero_add, Nat.zero_add] at hrun
  exact hrun

end Logged

end Machine8086
