import Machine8086.Proofs.Checked.Simulator
import Machine8086.Proofs.Estimation

/-!
# Runs in place

A run in place takes the same path as the run of the model. A round of it is a turn
(`exec_runFrom_of_turn`), a path is as many rounds (`exec_runFrom_of_path`), and it stops where the
run stops (`exec_runFrom_of_stops`). Its total of clocks does not wrap around: where the total has
no room in 64 bits any more, the run is a fault (`exec_runFrom_of_overflow`), and so is a step that
cannot be counted (`exec_runFrom_of_uncounted`). Otherwise the two runs are the same
(`exec_run_of_fits`, `exec_run_of_not_fits`).
-/

namespace Machine8086.Checked

variable {config : RunConfig} {s reached final : Simulator}

/-- The total of clocks, if they are counted. -/
def counted (config : RunConfig) (total : Nat) : Option Nat :=
  if config.estimateClocks then some total else none

/-- A total that fits in 64 bits is the total of the model. -/
theorem map_toNat_clockTotal {total : Nat} (h : total < 2 ^ 64) :
    (config.clockTotal total).map UInt64.toNat = counted config total := by
  rw [RunConfig.clockTotal, counted]
  split
  · exact congrArg some (UInt64.toNat_ofNat_of_lt' h)
  · rfl

/-- A run goes on if the instruction pointer is in the program and the limit is not reached. -/
theorem exec_runFrom_of_inProgram {rounds steps : Nat} {clocks : Option Nat}
    (hin : s.inProgram = true) (hlimit : config.Allows (steps + 1)) :
    (runFrom config (rounds + 1) steps clocks).exec s =
      (do
        let executed ← (stepWithin s.programEnd).mapError Failure.ofStep
        let clocks ← addClocks executed.instruction clocks
        let steps ← sum 64 steps 1
        runFrom config rounds steps clocks : Action Simulator Failure RunSummary).exec s := by
  have hgoes : (!s.inProgram || config.stepLimit.any (· ≤ steps)) = false := by
    rw [hin]
    cases hsome : config.stepLimit with
    | none => rfl
    | some limit =>
      have hlt := hlimit limit hsome
      simp
      omega
  rw [runFrom, Action.exec_bind_of_ok (Action.exec_get s)]
  simp only [hgoes]
  rfl

/-- What a reported step adds to the clocks, while they fit. -/
theorem exec_addClocks_of_reported {step reported : Step} {total : Nat}
    (h : config.reported? step = some reported)
    (hfits : total + reported.clocks.getD 0 < 2 ^ 64) (s : Simulator) :
    (addClocks step.instruction (counted config total)).exec s =
      .ok (.ok (counted config (total + reported.clocks.getD 0)), s) := by
  rw [RunConfig.reported?] at h
  rw [counted, counted]
  split at h
  case isTrue hestimate =>
    obtain ⟨clocks, hclocks, rfl⟩ := Option.map_eq_some_iff.1 h
    rw [if_pos hestimate, if_pos hestimate, addClocks, estimate_eq, hclocks, Action.lift_ok_bind]
    dsimp only [Option.getD_some] at hfits ⊢
    rw [sum_eq_ok hfits]
    rfl
  case isFalse hplain =>
    rw [if_neg hplain, if_neg hplain]
    rfl

/-- Clocks that do not fit any more are a fault. -/
theorem exec_addClocks_of_overflow {step reported : Step} {total : Nat}
    (h : config.reported? step = some reported) (hplain : step.clocks = none)
    (htotal : total < 2 ^ 64) (hover : 2 ^ 64 ≤ total + reported.clocks.getD 0) (s : Simulator) :
    (addClocks step.instruction (counted config total)).exec s = .error .overflow := by
  rw [RunConfig.reported?] at h
  rw [counted]
  split at h
  case isTrue hestimate =>
    obtain ⟨clocks, hclocks, rfl⟩ := Option.map_eq_some_iff.1 h
    rw [if_pos hestimate, addClocks, estimate_eq, hclocks, Action.lift_ok_bind]
    dsimp only [Option.getD_some] at hover ⊢
    rw [sum_eq_error hover]
    rfl
  case isFalse =>
    -- without estimates nothing is added
    rw [← Option.some.inj h, hplain, Option.getD_none] at hover
    omega

section Turn

variable {step : Step} {rounds steps total : Nat} (hturn : s.Turn config step)
  (hlimit : config.Allows (steps + 1))

include hturn hlimit

/-- A round of a run carries out its step before it counts. -/
theorem exec_runFrom_of_executed :
    (runFrom config (rounds + 1) steps (counted config total)).exec s =
      (do
        let clocks ← addClocks step.instruction (counted config total)
        let steps ← sum 64 steps 1
        runFrom config rounds steps clocks : Action Simulator Failure RunSummary).exec
          (s.commit step) := by
  have hstep := exec_stepWithin s.programEnd s
  rw [hturn.preview] at hstep
  rw [exec_runFrom_of_inProgram hturn.inProgram hlimit,
    Action.exec_bind_of_ok (Action.exec_mapError Failure.ofStep hstep)]
  rfl

/-- A round of a run is a turn. -/
theorem exec_runFrom_of_turn (hsteps : steps + 1 < 2 ^ 64)
    (hfits : total + step.clocks.getD 0 < 2 ^ 64) :
    (runFrom config (rounds + 1) steps (counted config total)).exec s =
      (runFrom config rounds (steps + 1) (counted config (total + step.clocks.getD 0))).exec
        (s.commit step) := by
  have hclocks := exec_addClocks_of_reported hturn.reported hfits (s.commit step)
  rw [exec_runFrom_of_executed hturn hlimit]
  refine (Action.exec_bind_of_ok hclocks).trans ?_
  rw [sum_eq_ok hsteps]
  rfl

/-- A turn whose clocks do not fit is a fault. -/
theorem exec_runFrom_of_turn_overflow (htotal : total < 2 ^ 64)
    (hover : 2 ^ 64 ≤ total + step.clocks.getD 0) :
    (runFrom config (rounds + 1) steps (counted config total)).exec s = .error .overflow := by
  have hclocks := exec_addClocks_of_overflow hturn.reported rfl htotal hover (s.commit step)
  rw [exec_runFrom_of_executed hturn hlimit]
  exact Action.exec_bind_of_fault hclocks

/-- A step that the counter has no room for is a fault. -/
theorem exec_runFrom_of_uncounted (hsteps : 2 ^ 64 ≤ steps + 1) (htotal : total < 2 ^ 64) :
    (runFrom config (rounds + 1) steps (counted config total)).exec s = .error .overflow := by
  rcases Nat.lt_or_ge (total + step.clocks.getD 0) (2 ^ 64) with hfits | hover
  · have hclocks := exec_addClocks_of_reported hturn.reported hfits (s.commit step)
    rw [exec_runFrom_of_executed hturn hlimit]
    refine (Action.exec_bind_of_ok hclocks).trans ?_
    rw [sum_eq_error hsteps]
    rfl
  · exact exec_runFrom_of_turn_overflow hturn hlimit htotal hover

end Turn

section Path

variable {path : List Step} {rounds steps total : Nat}

/-- A path is taken in as many rounds, while the clocks fit. -/
theorem exec_runFrom_of_path (hpath : s.Path config path reached)
    (hshort : steps + path.length < 2 ^ 64)
    (hlimit : config.Allows (steps + path.length))
    (hfits : total + clocksOf path < 2 ^ 64) :
    (runFrom config (rounds + path.length) steps (counted config total)).exec s =
      (runFrom config rounds (steps + path.length)
        (counted config (total + clocksOf path))).exec reached := by
  induction hpath generalizing steps total with
  | nil s => rfl
  | @cons s final step path hturn rest ih =>
    rw [List.length_cons] at hshort hlimit ⊢
    rw [clocksOf_cons] at hfits ⊢
    rw [← Nat.add_assoc,
      exec_runFrom_of_turn hturn (hlimit.of_le (by omega)) (by omega) (by omega),
      ih (by omega) (hlimit.of_le (by omega)) (by omega), Nat.add_assoc total,
      Nat.add_assoc steps, Nat.add_comm 1]

/-- A path whose clocks do not fit is a fault. -/
theorem exec_runFrom_of_overflow (hpath : s.Path config path reached)
    (hshort : steps + path.length < 2 ^ 64)
    (hlimit : config.Allows (steps + path.length))
    (htotal : total < 2 ^ 64) (hover : 2 ^ 64 ≤ total + clocksOf path) :
    (runFrom config (rounds + path.length) steps (counted config total)).exec s =
      .error .overflow := by
  induction hpath generalizing steps total with
  | nil s => exact absurd hover (Nat.not_le.2 htotal)
  | @cons s final step path hturn rest ih =>
    rw [List.length_cons] at hshort hlimit ⊢
    rw [clocksOf_cons, ← Nat.add_assoc] at hover
    rw [← Nat.add_assoc]
    -- the clocks of this step fit, or the fault is here
    rcases Nat.lt_or_ge (total + step.clocks.getD 0) (2 ^ 64) with hfits | hhere
    · rw [exec_runFrom_of_turn hturn (hlimit.of_le (by omega)) (by omega) hfits]
      exact ih (by omega) (hlimit.of_le (by omega)) hfits hover
    · exact exec_runFrom_of_turn_overflow hturn (hlimit.of_le (by omega)) htotal hhere

end Path

/-- Otherwise the run ends with what has been counted. -/
theorem exec_runFrom_of_done {rounds steps : Nat} {clocks : Option Nat}
    (hdone : s.inProgram = false ∨ ∃ limit, config.stepLimit = some limit ∧ limit ≤ steps) :
    (runFrom config rounds steps clocks).exec s = .ok (.ok ⟨s.cpu, steps, clocks⟩, s) := by
  have hstays : (!s.inProgram || config.stepLimit.any (· ≤ steps)) = true := by
    rcases hdone with hout | ⟨limit, hsome, hle⟩
    · rw [hout]
      rfl
    · simp [hsome, hle]
  rw [runFrom, Action.exec_bind_of_ok (Action.exec_get s)]
  simp only [hstays]
  rfl

/-- Where the run stops, so does the run in place, unless a step cannot be counted. -/
theorem exec_runFrom_of_stops {ending : Ending} {rounds steps total : Nat}
    (hstops : s.Stops config (config.budget - steps) final ending) (htotal : total < 2 ^ 64)
    (hcounted : ∀ step, ending ≠ .counterFull step) :
    (runFrom config (rounds + 1) steps (counted config total)).exec s =
      .ok (@RunResult.outcome Unit ⟨⟨final, (), steps, config.clockTotal total⟩, ending⟩,
        final) := by
  have hsummary : ∀ t : Simulator, (⟨t.cpu, steps, counted config total⟩ : RunSummary) =
      (⟨t, (), steps, config.clockTotal total⟩ : Progress Unit).summary := by
    intro t
    rw [Progress.summary, map_toNat_clockTotal htotal]
  have hlimit := @RunConfig.allows_of_spent config steps
  generalize hleft : config.budget - steps = budget at hstops hlimit
  cases hstops with
  | left hin =>
    rw [exec_runFrom_of_done (.inl hin), hsummary]
    rfl
  | spent hin hspent =>
    obtain ⟨rfl, limit, hsome⟩ := RunConfig.spent_eq_true_iff.1 hspent
    rw [RunConfig.budget, hsome, Option.getD_some] at hleft
    rw [exec_runFrom_of_done (.inr ⟨limit, hsome, Nat.le_of_sub_eq_zero hleft⟩), hsummary]
    rfl
  | @failed budget _ e hin hgoes hpreview =>
    have hstep := exec_stepWithin s.programEnd s
    rw [hpreview] at hstep
    rw [exec_runFrom_of_inProgram hin (hlimit hgoes),
      Action.exec_bind_of_error (Action.exec_mapError Failure.ofStep hstep)]
    rfl
  | @unestimated budget _ step hin hgoes hpreview hreported =>
    have hstep := exec_stepWithin s.programEnd s
    rw [hpreview] at hstep
    rw [exec_runFrom_of_inProgram hin (hlimit hgoes),
      Action.exec_bind_of_ok (Action.exec_mapError Failure.ofStep hstep), counted]
    rw [RunConfig.reported?] at hreported
    split at hreported
    case isTrue hestimate =>
      have hnone := Option.map_eq_none_iff.1 hreported
      have hclocks : (addClocks step.instruction (some total)).exec (s.commit step) =
          .ok (.error (.estimate step.instruction.operation), s.commit step) := by
        rw [addClocks, estimate_eq, hnone]
        rfl
      rw [if_pos hestimate]
      exact Action.exec_bind_of_error hclocks
    case isFalse => cases hreported
  | uncounted hgoes turn => exact absurd rfl (hcounted _)

/-! ## Whole runs -/

/-- All that a run counts has room in 64 bits. -/
structure Fits (run : RunResult (List Step)) : Prop where
  steps : run.steps < 2 ^ 64
  clocks : clocksOf run.report < 2 ^ 64
  counted : ∀ step, run.ending ≠ .counterFull step

section Path

variable {path : List Step} (hpath : s.Path config path reached) (hshort : path.length < 2 ^ 64)
  (hlimit : config.Allows path.length)

include hpath hshort hlimit

/-- A run in place takes a path that can be counted, and has a round left at its end. -/
theorem exec_run_of_path (hfits : clocksOf path < 2 ^ 64) :
    ∃ rounds, (run config).exec s =
      (runFrom config (rounds + 1) path.length (counted config (clocksOf path))).exec reached := by
  have hcounter : counterRange = 2 ^ 64 := rfl
  have hstart : (if config.estimateClocks then some 0 else none) = counted config 0 := rfl
  obtain ⟨rounds, hrounds⟩ := Nat.exists_eq_add_of_le' (Nat.succ_le_of_lt hshort)
  rw [Nat.succ_eq_one_add, ← Nat.add_assoc] at hrounds
  refine ⟨rounds, ?_⟩
  rw [run, hcounter, hrounds, hstart, exec_runFrom_of_path hpath (by rwa [Nat.zero_add])
    (by rwa [Nat.zero_add]) (by rwa [Nat.zero_add]), Nat.zero_add, Nat.zero_add]

/-- A run in place along a path whose clocks do not fit is a fault. -/
theorem exec_run_of_overflow (hover : 2 ^ 64 ≤ clocksOf path) :
    (run config).exec s = .error .overflow := by
  have hcounter : counterRange = 2 ^ 64 := rfl
  have hstart : (if config.estimateClocks then some 0 else none) = counted config 0 := rfl
  obtain ⟨rounds, hrounds⟩ := Nat.exists_eq_add_of_le' (Nat.le_of_lt hshort)
  rw [run, hcounter, hrounds, hstart]
  exact exec_runFrom_of_overflow hpath (by rwa [Nat.zero_add]) (by rwa [Nat.zero_add]) (by decide)
    (by rwa [Nat.zero_add])

end Path

/-- A step that is due when the counter is full is a fault. -/
theorem exec_run_of_full {path : List Step} {step : Step} (hpath : s.Path config path reached)
    (hfull : path.length + 1 = 2 ^ 64) (hturn : reached.Turn config step)
    (hlimit : config.Allows (path.length + 1)) : (run config).exec s = .error .overflow := by
  have hshort : path.length < 2 ^ 64 := by omega
  have hreach := hlimit.of_le (Nat.le_add_right path.length 1)
  -- the clocks may not have fitted before
  rcases Nat.lt_or_ge (clocksOf path) (2 ^ 64) with hfits | hover
  · obtain ⟨rounds, hrun⟩ := exec_run_of_path hpath hshort hreach hfits
    rw [hrun, exec_runFrom_of_uncounted hturn hlimit (Nat.le_of_eq hfull.symm) hfits]
  · exact exec_run_of_overflow hpath hshort hreach hover

/-- A run in place whose counts fit ends as the run of the model ends, with the same simulator. -/
theorem exec_run_of_fits (h : Fits (s.trace config)) :
    (run config).exec s = .ok ((s.trace config).outcome, (s.trace config).simulator) := by
  obtain ⟨path, reached, final, ending, hpath, hlength, hstops⟩ :=
    Simulator.exists_path config config.budget s
  rw [Simulator.trace_eq_of_path hpath hlength hstops] at h ⊢
  obtain ⟨hsteps, hclocks, hcounted⟩ := h
  obtain ⟨rounds, hrun⟩ :=
    exec_run_of_path hpath hsteps (RunConfig.allows_of_le_budget hlength) hclocks
  rw [hrun, exec_runFrom_of_stops hstops hclocks hcounted]
  rfl

/-- A run in place whose counts do not fit is a fault. -/
theorem exec_run_of_not_fits (h : ¬ Fits (s.trace config)) :
    (run config).exec s = .error .overflow := by
  obtain ⟨reached, hpath, hlength, hstops⟩ := s.trace_path config
  have hlimit := RunConfig.allows_of_le_budget hlength
  rcases Nat.lt_or_ge (s.trace config).report.length (2 ^ 64) with hshort | hlong
  · rcases Nat.lt_or_ge (clocksOf (s.trace config).report) (2 ^ 64) with hfits | hover
    · -- what does not fit is the step counter
      obtain ⟨step, hending⟩ : ∃ step, (s.trace config).ending = .counterFull step := by
        by_contra hnone
        exact h ⟨by rwa [s.steps_trace], hfits, not_exists.1 hnone⟩
      obtain ⟨hunlimited, hfull⟩ := Simulator.trace_of_counterFull hending
      obtain ⟨reported, turn⟩ := (hending ▸ hstops).exists_turn_of_counterFull
      refine exec_run_of_full hpath hfull turn fun limit hsome => ?_
      cases hunlimited.symm.trans hsome
    · exact exec_run_of_overflow hpath hshort hlimit hover
  · -- the path goes on where the counter is full
    obtain ⟨middle, hfirst, turn⟩ :=
      hpath.turn_at (show 2 ^ 64 - 1 < (s.trace config).report.length by omega)
    have hlength : ((s.trace config).report.take (2 ^ 64 - 1)).length = 2 ^ 64 - 1 :=
      List.length_take_of_le (by omega)
    exact exec_run_of_full hfirst (by omega) turn (hlimit.of_le (by omega))

/-- The clocks of a reported step are within their bound. -/
theorem clocks_le_of_turn {step : Step} (h : s.Turn config step) : step.clocks.getD 0 ≤ 29 := by
  have hreported := h.reported
  rw [RunConfig.reported?] at hreported
  split at hreported
  case isTrue hestimate =>
    obtain ⟨clocks, hclocks, hstep⟩ := Option.map_eq_some_iff.1 hreported
    have hbounds := Instruction.clocks?_bounds hclocks
    rw [← hstep]
    exact hbounds.2
  case isFalse hplain =>
    rw [← Option.some.inj hreported]
    exact Nat.zero_le 29

theorem clocksOf_le_of_path {path : List Step} (hpath : s.Path config path reached) :
    clocksOf path ≤ 29 * path.length := by
  induction hpath with
  | nil s => exact Nat.zero_le _
  | cons hturn rest ih =>
    have hclocks := clocks_le_of_turn hturn
    rw [clocksOf_cons, List.length_cons]
    omega

/-- What a run of fewer than `2 ^ 59` steps counts has room in 64 bits. -/
theorem fits_of_short (h : (s.trace config).steps < 2 ^ 59) : Fits (s.trace config) := by
  obtain ⟨reached, hpath, hlength, hstops⟩ := s.trace_path config
  have hclocks := clocksOf_le_of_path hpath
  have hsteps := s.steps_trace config
  refine ⟨by omega, by omega, fun step hfull => ?_⟩
  have hcounter : counterRange = 2 ^ 64 := rfl
  have hcount := (Simulator.trace_of_counterFull hfull).2
  omega

/-- A run in place of fewer than `2 ^ 59` steps has no faults. It ends as the run of the model ends,
with the same simulator. -/
theorem exec_run (s : Simulator) (config : RunConfig) (h : (s.trace config).steps < 2 ^ 59) :
    (run config).exec s = .ok ((s.trace config).outcome, (s.trace config).simulator) :=
  exec_run_of_fits (fits_of_short h)

end Machine8086.Checked
