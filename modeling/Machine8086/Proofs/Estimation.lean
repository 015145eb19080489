import Machine8086.Proofs.RunLimit

/-!
# Clock estimates of runs

Estimating clocks only observes a run. Every move and addition that is decoded has an estimate, of
two to 29 clocks, and nothing else has one (`Instruction.WellFormed.exists_clocks_iff`,
`Instruction.clocks?_bounds`). A path on which every step has an estimate is a path of the run that
estimates, with the clocks noted (`Simulator.Path.estimated`); so both runs agree up to the first
step that has none, and there the run that estimates fails (`estimation_observes`).
-/

namespace Machine8086

/-! ## Estimates of instructions -/

theorem MemoryOperand.clocks_bounds (o : MemoryOperand) : 5 ≤ o.clocks ∧ o.clocks ≤ 12 := by
  cases o with
  | direct address => simp [clocks]
  | based base displacement =>
    rw [clocks]
    split
    case isTrue => cases base <;> simp [AddressBase.clocks]
    case isFalse => cases base <;> simp [AddressBase.clocks]

theorem movClocks?_bounds {destination : Operand} {source : Source} {clocks : Nat}
    (h : movClocks? destination source = some clocks) : 2 ≤ clocks ∧ clocks ≤ 29 := by
  unfold movClocks? at h
  split at h
  all_goals grind [MemoryOperand.clocks_bounds]

theorem addClocks?_bounds {destination : Operand} {source : Source} {clocks : Nat}
    (h : addClocks? destination source = some clocks) : 2 ≤ clocks ∧ clocks ≤ 29 := by
  unfold addClocks? at h
  split at h
  all_goals grind [MemoryOperand.clocks_bounds]

/-- Only two memory operands have no estimate, and they do not match. -/
theorem Matched.exists_clocks {destination : Operand} {source : Source}
    (h : Matched destination source) :
    (∃ clocks, movClocks? destination source = some clocks) ∧
      ∃ clocks, addClocks? destination source = some clocks := by
  constructor
  · unfold movClocks?
    split
    case h_8 => exact h.elim
    all_goals exact ⟨_, rfl⟩
  · unfold addClocks?
    split
    case h_6 => exact h.elim
    all_goals exact ⟨_, rfl⟩

namespace Instruction

theorem clocks?_bounds {i : Instruction} {clocks : Nat} (h : i.clocks? = some clocks) :
    2 ≤ clocks ∧ clocks ≤ 29 := by
  unfold clocks? at h
  split at h
  case h_1 => exact movClocks?_bounds h
  case h_2 => exact addClocks?_bounds h
  case h_3 => cases h

/-- The operations that have an estimate are the moves and the additions. -/
theorem WellFormed.exists_clocks_iff {i : Instruction} (hi : i.WellFormed) :
    (∃ clocks, i.clocks? = some clocks) ↔ i.operation ∈ [Operation.mov, .add] := by
  obtain ⟨operation, operands⟩ := i
  cases operands with
  | pair destination source =>
    obtain ⟨hmov, hadd⟩ := Matched.exists_clocks hi.2
    cases operation with
    | mov => simpa [clocks?] using hmov
    | add => simpa [clocks?] using hadd
    | _ => simp [clocks?]
  | relative offset =>
    have hjump : operation.isRelativeJump = true := hi
    cases operation with
    | mov => cases hjump
    | add => cases hjump
    | _ => simp [clocks?]

end Instruction

/-! ## Steps and paths with estimates -/

namespace RunConfig

/-- A run without estimates. -/
def plain (limit : Option Nat) : RunConfig := { stepLimit := limit }

/-- A run with estimates. -/
def estimating (limit : Option Nat) : RunConfig := { estimateClocks := true, stepLimit := limit }

variable {config : RunConfig}

theorem reported?_of_estimating (h : config.estimateClocks = true) (step : Step) :
    config.reported? step =
      step.instruction.clocks?.map fun clocks => { step with clocks := some clocks } := by
  rw [reported?, h]
  rfl

end RunConfig

/-- A step with the clocks of its instruction noted. -/
def Step.estimated (s : Step) : Step := { s with clocks := s.instruction.clocks? }

namespace Simulator

variable {config config' : RunConfig} {s final : Simulator} {step : Step} {steps : List Step}

/-- A run reports instructions that were decoded. -/
theorem Turn.wellFormed (h : s.Turn config step) : step.instruction.WellFormed :=
  (Instruction.decodable_iff_wellFormed _).1 ⟨_, _, _, _, h.isStep.decoded, rfl⟩

theorem Turn.withoutClocks_eq (h : s.Turn config step) (hplain : config.estimateClocks = false) :
    step.withoutClocks = step := by
  have hreported := h.reported
  rw [RunConfig.reported?_of_plain hplain] at hreported
  exact Option.some.inj hreported

/-- A run that estimates takes the same turn, with the clocks noted. -/
theorem Turn.estimated {clocks : Nat} (h : s.Turn config step)
    (hestimate : config'.estimateClocks = true)
    (hclocks : step.instruction.clocks? = some clocks) : s.Turn config' step.estimated := by
  refine ⟨h.inProgram, h.preview, ?_⟩
  rw [RunConfig.reported?_of_estimating hestimate]
  show Option.map _ step.instruction.clocks? = _
  rw [Step.estimated, hclocks]
  rfl

theorem Path.estimated (h : s.Path config steps final) (hestimate : config'.estimateClocks = true)
    (hclocks : ∀ step ∈ steps, ∃ clocks, step.instruction.clocks? = some clocks) :
    s.Path config' (steps.map Step.estimated) final := by
  induction h with
  | nil s => exact .nil s
  | @cons s final step steps turn rest ih =>
    obtain ⟨clocks, hstep⟩ := hclocks step List.mem_cons_self
    exact .cons (turn.estimated hestimate hstep)
      (ih fun other hother => hclocks other (List.mem_cons_of_mem _ hother))

/-- At each of its steps a path can be cut. -/
theorem Path.split {before after : List Step} (h : s.Path config (before ++ step :: after) final) :
    ∃ middle : Simulator, s.Path config before middle ∧ middle.Turn config step := by
  induction before generalizing s with
  | nil =>
    cases h with
    | cons turn rest => exact ⟨s, .nil s, turn⟩
  | cons first before ih =>
    cases h with
    | cons turn rest =>
      obtain ⟨middle, hpath, hturn⟩ := ih rest
      exact ⟨middle, .cons turn hpath, hturn⟩

/-- As many steps as there are lead to the turn behind them. -/
theorem Path.turn_at (h : s.Path config steps final) {n : Nat} (hn : n < steps.length) :
    ∃ middle : Simulator, s.Path config (steps.take n) middle ∧ middle.Turn config steps[n] := by
  have hsplit : steps = steps.take n ++ steps[n] :: steps.drop (n + 1) := by
    rw [List.cons_getElem_drop_succ, List.take_append_drop]
  rw [hsplit] at h
  exact h.split

theorem Path.turn_of_mem (h : s.Path config steps final) (hstep : step ∈ steps) :
    ∃ middle : Simulator, middle.Turn config step := by
  obtain ⟨before, after, rfl⟩ := List.append_of_mem hstep
  obtain ⟨middle, -, turn⟩ := h.split
  exact ⟨middle, turn⟩

/-- Without estimates, a step that is executed and not reported is a turn that cannot be counted. -/
theorem Stops.path_unreported {budget : Nat} {ending : Ending}
    (h : s.Stops config budget final ending) (hplain : config.estimateClocks = false) :
    s.Path config ending.unreported final ∧
      (ending.unreported = [] ∨
        ending.unreported.length = 1 ∧ budget = 0 ∧ config.spent 0 = false) := by
  cases h with
  | left hin => exact ⟨.nil s, .inl rfl⟩
  | spent hin hspent => exact ⟨.nil s, .inl rfl⟩
  | failed hin hgoes hpreview => exact ⟨.nil s, .inl rfl⟩
  | unestimated hin hgoes hpreview hreported =>
    rw [RunConfig.reported?_of_plain hplain] at hreported
    cases hreported
  | uncounted hgoes turn =>
    rw [turn.withoutClocks_eq hplain]
    exact ⟨.cons turn (.nil _), .inr ⟨rfl, rfl, hgoes⟩⟩

/-- What ends a run without estimates ends the run that estimates, if a step that is not reported
has an estimate. -/
theorem Stops.estimated {budget : Nat} {ending : Ending} (h : s.Stops config budget final ending)
    (hplain : config.estimateClocks = false) (hestimate : config'.estimateClocks = true)
    (hspent : config.spent = config'.spent)
    (hclocks : ∀ step ∈ ending.unreported, ∃ clocks, step.instruction.clocks? = some clocks) :
    s.Stops config' budget final ending := by
  cases h with
  | left hin => exact .left hin
  | spent hin hlimit => exact .spent hin (hspent ▸ hlimit)
  | failed hin hgoes hpreview => exact .failed hin (hspent ▸ hgoes) hpreview
  | unestimated hin hgoes hpreview hreported =>
    rw [RunConfig.reported?_of_plain hplain] at hreported
    cases hreported
  | uncounted hgoes turn =>
    obtain ⟨clocks, hstep⟩ := hclocks _ List.mem_cons_self
    have hturn := turn.estimated hestimate hstep
    have hstops : s.Stops config' 0 _ _ := .uncounted (hspent ▸ hgoes) hturn
    exact hstops

/-! ## Runs with estimates -/

variable {limit : Option Nat}

/-- What a run without estimates executes is a path, and each of its steps was due before the limit
was reached. -/
theorem path_executed_plain (s : Simulator) (limit : Option Nat) :
    let run := s.trace (.plain limit)
    s.Path (.plain limit) run.executed run.simulator ∧
      ∀ k < run.executed.length, k ≤ (RunConfig.plain limit).budget ∧
        (RunConfig.plain limit).spent ((RunConfig.plain limit).budget - k) = false := by
  intro run
  obtain ⟨reached, hpath, hlength, hstops⟩ := s.trace_path (.plain limit)
  obtain ⟨hlast, hunreported⟩ := hstops.path_unreported rfl
  refine ⟨hpath.append hlast, fun k hk => ?_⟩
  rw [RunResult.executed, List.length_append] at hk
  rcases Nat.lt_or_ge k run.report.length with hlt | hge
  · obtain ⟨left, hleft⟩ := Nat.exists_eq_add_one_of_ne_zero
      (Nat.sub_ne_zero_of_lt (Nat.lt_of_lt_of_le hlt hlength))
    rw [hleft]
    exact ⟨Nat.le_trans (Nat.le_of_lt hlt) hlength, rfl⟩
  · -- beyond the report there is the step that cannot be counted
    rcases hunreported with hnone | ⟨hone, hfull, hgoes⟩
    · rw [hnone] at hk
      exact absurd hge (Nat.not_le.2 hk)
    · rw [show run.ending.unreported.length = 1 from hone] at hk
      obtain rfl : k = run.report.length := by omega
      rw [hfull]
      exact ⟨hlength, hgoes⟩

/-- If every step has an estimate, the run that estimates differs in the clocks only. -/
theorem trace_estimating_of_forall
    (h : ∀ step ∈ (s.trace (.plain limit)).executed,
      ∃ clocks, step.instruction.clocks? = some clocks) :
    s.trace (.estimating limit) =
      let plain := s.trace (.plain limit)
      let reported := plain.report.map Step.estimated
      { plain with
        report := reported
        clocks := some (UInt64.ofNat (clocksOf reported)) } := by
  obtain ⟨steps, reached, final, ending, hpath, hlength, hstops⟩ :=
    exists_path (.plain limit) (RunConfig.plain limit).budget s
  have hplain := trace_eq_of_path hpath hlength hstops
  rw [hplain] at h ⊢
  have hpath' : s.Path (.estimating limit) (steps.map Step.estimated) reached :=
    hpath.estimated rfl fun step hstep => h step (List.mem_append_left _ hstep)
  rw [← List.length_map Step.estimated] at hlength hstops
  have hstops' : reached.Stops (.estimating limit) _ final ending :=
    hstops.estimated rfl rfl rfl fun step hstep => h step (List.mem_append_right _ hstep)
  refine (trace_eq_of_path hpath' hlength hstops').trans ?_
  rw [List.length_map]
  rfl

/-- At the first step that has no estimate, the run that estimates fails. It has reported the steps
before, and has carried out this one. -/
theorem trace_estimating_of_first {before after : List Step}
    (h : (s.trace (.plain limit)).executed = before ++ step :: after)
    (hbefore : ∀ other ∈ before, ∃ clocks, other.instruction.clocks? = some clocks)
    (hstep : step.instruction.clocks? = none) :
    (s.trace (.estimating limit)).report = before.map Step.estimated ∧
      (s.trace (.estimating limit)).ending = .estimateFailed step := by
  obtain ⟨hpath, hdue⟩ := s.path_executed_plain limit
  rw [h] at hpath hdue
  obtain ⟨middle, hfirst, turn⟩ := hpath.split
  obtain ⟨hlength, hgoes⟩ := hdue before.length (by simp)
  have hpath' : s.Path (.estimating limit) (before.map Step.estimated) middle :=
    hfirst.estimated rfl hbefore
  have hreported : (RunConfig.estimating limit).reported? step = none := by
    rw [RunConfig.reported?_of_estimating rfl, hstep]
    rfl
  have hpreview := turn.preview
  rw [turn.withoutClocks_eq rfl] at hpreview
  -- the step was due in the run without estimates, so it is due here as well
  rw [← List.length_map Step.estimated] at hlength hgoes
  rw [trace_eq_of_path hpath' hlength (.unestimated turn.inProgram hgoes hpreview hreported)]
  exact ⟨rfl, rfl⟩

/-- A run without estimates executes steps without clocks, and of these the moves and additions have
an estimate. -/
theorem executed_plain (hstep : step ∈ (s.trace (.plain limit)).executed) :
    step.withoutClocks = step ∧ ((∃ clocks, step.instruction.clocks? = some clocks) ↔
      step.instruction.operation ∈ [Operation.mov, .add]) := by
  obtain ⟨middle, turn⟩ := (s.path_executed_plain limit).1.turn_of_mem hstep
  exact ⟨turn.withoutClocks_eq rfl, turn.wellFormed.exists_clocks_iff⟩

end Simulator

theorem Instruction.estimate_eq_ok_iff (i : Instruction) (clocks : Nat) :
    i.estimate = .ok clocks ↔ i.clocks? = some clocks := by
  rw [estimate]
  cases i.clocks? with
  | none => simp
  | some c => simp

theorem map_withoutClocks_estimated {steps : List Step}
    (h : ∀ step ∈ steps, step.withoutClocks = step) :
    (steps.map Step.estimated).map Step.withoutClocks = steps := by
  rw [List.map_map]
  exact (List.map_congr_left h).trans (List.map_id steps)

/-- The clocks that are noted are the estimates. -/
theorem estimate_of_mem_estimated {steps : List Step} {step : Step}
    (h : ∀ step ∈ steps, ∃ clocks, step.instruction.clocks? = some clocks)
    (hstep : step ∈ steps.map Step.estimated) :
    ∃ clocks, step.instruction.estimate = .ok clocks ∧ step.clocks = some clocks := by
  obtain ⟨original, horiginal, rfl⟩ := List.mem_map.1 hstep
  obtain ⟨clocks, hclocks⟩ := h original horiginal
  exact ⟨clocks, (Instruction.estimate_eq_ok_iff ..).2 hclocks, hclocks⟩

/-- Estimated clocks add up to between two and 29 for each step. -/
theorem sum_estimated_bounds {steps : List Step}
    (h : ∀ step ∈ steps, ∃ clocks, step.instruction.clocks? = some clocks) :
    2 * steps.length ≤ clocksOf (steps.map Step.estimated) ∧
      clocksOf (steps.map Step.estimated) ≤ 29 * steps.length := by
  induction steps with
  | nil => simp
  | cons step steps ih =>
    obtain ⟨clocks, hclocks⟩ := h step List.mem_cons_self
    have hbounds := Instruction.clocks?_bounds hclocks
    have hrest := ih fun other hother => h other (List.mem_cons_of_mem _ hother)
    have hstep : step.estimated.clocks = some clocks := hclocks
    rw [List.map_cons, clocksOf_cons, List.length_cons, hstep, Option.getD_some]
    omega

/-- Estimating clocks only observes. Both runs start from the same simulator and have the same
limit. If all that the run without estimates executes are moves and additions, the run with
estimates ends alike, with the same simulator and the same steps but for their clocks, and the
clocks add up to between two and 29 for each step; the total is this sum with 64 bits, and the sum
itself for fewer than `2 ^ 59` steps. Otherwise the run with estimates fails at the first step that
is neither, for want of its estimate, and reports the steps before it. In either case the clocks of
each reported step are the estimate of its instruction. -/
theorem estimation_observes (s : Simulator) (limit : Option Nat) :
    let plain := s.trace (.plain limit)
    let estimating := s.trace (.estimating limit)
    (∀ step ∈ estimating.report, ∃ clocks,
        step.instruction.estimate = .ok clocks ∧ step.clocks = some clocks) ∧
      ((∀ step ∈ plain.executed, step.instruction.operation ∈ [Operation.mov, .add]) →
        estimating.simulator = plain.simulator ∧ estimating.ending = plain.ending ∧
          estimating.report.map Step.withoutClocks = plain.report ∧
          ∃ total, total = (estimating.report.map fun step => step.clocks.getD 0).sum ∧
            2 * estimating.steps ≤ total ∧ total ≤ 29 * estimating.steps ∧
            (estimating.outcome = plain.outcome.map fun summary =>
              { summary with totalClocks := some (total % 2 ^ 64) }) ∧
            (estimating.steps < 2 ^ 59 → total % 2 ^ 64 = total)) ∧
      ((¬ ∀ step ∈ plain.executed, step.instruction.operation ∈ [Operation.mov, .add]) →
        ∃ before step after, plain.executed = before ++ step :: after ∧
          (∀ other ∈ before, other.instruction.operation ∈ [Operation.mov, .add]) ∧
          step.instruction.operation ∉ [Operation.mov, .add] ∧
          estimating.outcome = .error (.estimate step.instruction.operation) ∧
          estimating.report.map Step.withoutClocks = before) := by
  intro plain estimating
  by_cases hall : ∀ step ∈ plain.executed, step.instruction.operation ∈ [Operation.mov, .add]
  · have hclocks : ∀ step ∈ plain.executed, ∃ clocks, step.instruction.clocks? = some clocks :=
      fun step hstep => (Simulator.executed_plain hstep).2.2 (hall step hstep)
    have hreport : ∀ step ∈ plain.report, step ∈ plain.executed :=
      fun step hstep => List.mem_append_left _ hstep
    have hreported : ∀ step ∈ plain.report, ∃ clocks, step.instruction.clocks? = some clocks :=
      fun step hstep => hclocks step (hreport step hstep)
    have htrace : estimating = _ := Simulator.trace_estimating_of_forall hclocks
    have hsteps : estimating.steps = plain.report.length := by
      rw [htrace]
      exact s.steps_trace _
    obtain ⟨hlower, hupper⟩ := sum_estimated_bounds hreported
    rw [hsteps, htrace]
    refine ⟨fun step hstep => estimate_of_mem_estimated hreported hstep,
      fun _ => ⟨rfl, rfl, ?_, _, rfl, hlower, hupper, ?_, fun hshort => ?_⟩,
      fun h => absurd hall h⟩
    · exact map_withoutClocks_estimated fun step hstep =>
        (Simulator.executed_plain (hreport step hstep)).1
    · exact RunResult.outcome_eq_map rfl rfl
    · exact Nat.mod_eq_of_lt (Nat.lt_of_le_of_lt hupper (by omega))
  · -- the first step that is no move and no addition
    obtain ⟨step, hfind⟩ : ∃ step, plain.executed.find?
        (fun step => step.instruction.operation ∉ [Operation.mov, .add]) = some step := by
      rw [← Option.isSome_iff_exists, List.find?_isSome]
      simpa only [decide_eq_true_eq, not_forall, exists_prop] using hall
    obtain ⟨hfirst, before, after, hexecuted, hprefix⟩ := List.find?_eq_some_iff_append.1 hfind
    have hstep : step.instruction.operation ∉ [Operation.mov, .add] := of_decide_eq_true hfirst
    have hbefore : ∀ other ∈ before, other.instruction.operation ∈ [Operation.mov, .add] :=
      fun other hother => by simpa using hprefix other hother
    have hmem : ∀ other ∈ before, other ∈ plain.executed := by
      intro other hother
      rw [hexecuted]
      exact List.mem_append_left _ hother
    have hclocks : ∀ other ∈ before, ∃ clocks, other.instruction.clocks? = some clocks :=
      fun other hother => (Simulator.executed_plain (hmem other hother)).2.2 (hbefore other hother)
    have hnone : step.instruction.clocks? = none := by
      rw [Option.eq_none_iff_forall_ne_some]
      intro clocks hsome
      have hmember : step ∈ plain.executed := List.mem_of_find?_eq_some hfind
      exact hstep ((Simulator.executed_plain hmember).2.1 ⟨clocks, hsome⟩)
    obtain ⟨hreported, hending⟩ := Simulator.trace_estimating_of_first hexecuted hclocks hnone
    refine ⟨?_, fun h => absurd h hall, fun _ => ⟨before, step, after, hexecuted, hbefore, hstep,
      ?_, ?_⟩⟩
    · rw [hreported]
      exact fun other hother => estimate_of_mem_estimated hclocks hother
    · rw [RunResult.outcome, hending]
    · rw [hreported]
      exact map_withoutClocks_estimated fun other hother =>
        (Simulator.executed_plain (hmem other hother)).1

/-- `mov ax, 5` and `add ax, bx` are run with estimates as without them. With `cmp ax, bx` in place
of the addition, the run with estimates fails. -/
theorem estimation_observes_mov_add :
    (∃ s : Simulator, Simulator.load {} [0xB8, 0x05, 0x00, 0x01, 0xD8] 0 = .ok s ∧
      (∀ step ∈ (s.trace (.plain none)).executed,
        step.instruction.operation ∈ [Operation.mov, .add]) ∧
      ∃ total, total ≤ 29 * (s.trace (.estimating none)).steps ∧
        (s.trace (.estimating none)).outcome = .ok ⟨{ ax := 5, ip := 5 }, 2, some total⟩) ∧
      ∃ t : Simulator, Simulator.load {} [0xB8, 0x05, 0x00, 0x39, 0xD8] 0 = .ok t ∧
        (¬ ∀ step ∈ (t.trace (.plain none)).executed,
          step.instruction.operation ∈ [Operation.mov, .add]) ∧
        ∃ operation, (t.trace (.estimating none)).outcome = .error (.estimate operation) := by
  constructor
  · obtain ⟨s, hload, hoperations, hplain, hsteps⟩ : ∃ s : Simulator,
        Simulator.load {} [0xB8, 0x05, 0x00, 0x01, 0xD8] 0 = .ok s ∧
          (s.trace (.plain none)).executed.map (·.instruction.operation) = [.mov, .add] ∧
          (s.trace (.plain none)).outcome = .ok ⟨{ ax := 5, ip := 5 }, 2, none⟩ ∧
          (s.trace (.estimating none)).steps = 2 :=
      ⟨_, rfl, by decide +kernel, rfl, by decide +kernel⟩
    have hall : ∀ step ∈ (s.trace (.plain none)).executed,
        step.instruction.operation ∈ [Operation.mov, .add] := by
      intro step hstep
      rw [← hoperations]
      exact List.mem_map_of_mem hstep
    obtain ⟨-, -, -, total, -, -, hupper, houtcome, hexact⟩ :=
      (estimation_observes s none).2.1 hall
    rw [hplain, hexact (by rw [hsteps]; decide)] at houtcome
    exact ⟨s, hload, hall, total, hupper, houtcome⟩
  · obtain ⟨t, hload, hoperations⟩ : ∃ t : Simulator,
        Simulator.load {} [0xB8, 0x05, 0x00, 0x39, 0xD8] 0 = .ok t ∧
          (t.trace (.plain none)).executed.map (·.instruction.operation) = [.mov, .cmp] :=
      ⟨_, rfl, by decide +kernel⟩
    have hnot : ¬ ∀ step ∈ (t.trace (.plain none)).executed,
        step.instruction.operation ∈ [Operation.mov, .add] := by
      intro hall
      have hcmp :
          Operation.cmp ∈ (t.trace (.plain none)).executed.map (·.instruction.operation) := by
        rw [hoperations]
        decide
      obtain ⟨step, hstep, hoperation⟩ := List.mem_map.1 hcmp
      have hmember := hall step hstep
      rw [hoperation] at hmember
      exact absurd hmember (by decide)
    obtain ⟨-, step, -, -, -, -, houtcome, -⟩ := (estimation_observes t none).2.2 hnot
    exact ⟨t, hload, hnot, _, houtcome⟩

end Machine8086
