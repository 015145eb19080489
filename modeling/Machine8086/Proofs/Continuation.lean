import Machine8086.Proofs.Checked.Run
import Machine8086.Proofs.RunLimit

/-!
# Continued runs

A run that is ended by its limit can be continued, and with its continuation it is the run with both
limits (`run_split`). The step counter has room for every limit of 64 bits, so in place only the
clocks can be too many: then the run is a fault, and else it is the run of the model
(`Checked.exec_run_limited`). Two runs can fit where the run with both limits does not
(`whole_overflows`).
-/

namespace Machine8086

namespace Checked

/-- What a run in place ends with if its limit has 64 bits: a fault, if the clocks of its steps have
no room in 64 bits, and else what the run of the model ends with. -/
def unlessOverflow (run : RunResult (List Step)) :
    Except Fault (Except Failure RunSummary × Simulator) :=
  if clocksOf run.report < 2 ^ 64 then .ok (run.outcome, run.simulator) else .error .overflow

theorem unlessOverflow_of_fits {run : RunResult (List Step)} (h : clocksOf run.report < 2 ^ 64) :
    unlessOverflow run = .ok (run.outcome, run.simulator) :=
  if_pos h

theorem unlessOverflow_of_overflow {run : RunResult (List Step)}
    (h : 2 ^ 64 ≤ clocksOf run.report) : unlessOverflow run = .error .overflow :=
  if_neg (Nat.not_lt.2 h)

theorem fits_limited_iff (s : Simulator) (estimateClocks : Bool) {limit : Nat}
    (hlimit : limit < 2 ^ 64) :
    Fits (s.trace (.limited estimateClocks limit)) ↔
      clocksOf (s.trace (.limited estimateClocks limit)).report < 2 ^ 64 := by
  refine ⟨Fits.clocks, fun hclocks => ⟨?_, hclocks, fun step hfull => ?_⟩⟩
  · have hexecuted := @Simulator.length_executed_le (.limited estimateClocks limit) s limit rfl
    rw [RunResult.executed, List.length_append] at hexecuted
    rw [s.steps_trace]
    omega
  · cases (Simulator.trace_of_counterFull hfull).1

/-- With a limit of 64 bits, a run in place is the run of the model, unless its clocks have no room
in 64 bits. -/
theorem exec_run_limited (s : Simulator) (estimateClocks : Bool) {limit : Nat}
    (hlimit : limit < 2 ^ 64) :
    (run (.limited estimateClocks limit)).exec s =
      unlessOverflow (s.trace (.limited estimateClocks limit)) := by
  by_cases hfits : Fits (s.trace (.limited estimateClocks limit))
  · rw [exec_run_of_fits hfits, unlessOverflow_of_fits hfits.clocks]
  · rw [exec_run_of_not_fits hfits, unlessOverflow_of_overflow]
    exact Nat.not_lt.1 (mt (fits_limited_iff s estimateClocks hlimit).2 hfits)

end Checked

namespace Simulator

/-- The program fills memory with the byte that is both bytes of `mov al, 176`, and the instruction
pointer is at one of these moves. -/
structure FilledWithMoves (s : Simulator) : Prop where
  fills : s.FillsMemory
  read : ∀ address, s.memory.read address = 0xB0
  even : s.cpu.ip.toNat % 2 = 0

variable {s : Simulator} {config : RunConfig}

/-- Such a program goes on with a move, which takes four clocks. -/
theorem FilledWithMoves.turn (h : s.FilledWithMoves) (hestimate : config.estimateClocks = true) :
    ∃ step, s.Turn config step ∧ step.clocks = some 4 ∧ (s.commit step).FilledWithMoves := by
  let mov : Instruction := .pair .mov (.register .al) (.immediate (.ofByte 0xB0))
  have hencodes : Encodes [0xB0, 0xB0] mov := .movImmediateToRegister .al (.byte 0xB0)
  have hdecode : decode s.memory s.cpu.ip s.programEnd = .ok ⟨s.cpu.ip, 2, mov⟩ := by
    rw [h.fills.2, decode_eq_ok_iff, Memory.readBytes, Memory.readBytes, Memory.readBytes, h.read,
      h.read]
    refine ⟨rfl, ?_, hencodes⟩
    have hbound := toNat_lt_addressSpace s.cpu.ip
    have heven := h.even
    have htop : addressSpace = 65536 := rfl
    show s.cpu.ip.toNat + 2 ≤ min addressSpace addressSpace
    omega
  have hline : mov.StraightLine := .inr ⟨List.mem_cons_self, .al, rfl⟩
  obtain ⟨step, hstep, hdecoded, hmemory, hip⟩ := exists_straightLine_step hdecode hline
  have hmov : step.instruction = mov := congrArg Decoded.instruction hdecoded
  have hclocks : step.instruction.clocks? = some 4 := by
    rw [hmov]
    rfl
  have hplain : s.Turn {} step := .of_isStep rfl (inProgram_of_fillsMemory h.fills) hstep
  refine ⟨step.estimated, hplain.estimated hestimate hclocks, hclocks, h.fills, ?_, ?_⟩
  · show ∀ address, (s.commit step).memory.read address = 0xB0
    rw [hmemory]
    exact h.read
  · show (s.commit step).cpu.ip.toNat % 2 = 0
    have heven := h.even
    rw [hip, UInt16.toNat_ofNat']
    dsimp only
    omega

/-- It goes on for as many moves as it may. -/
theorem FilledWithMoves.exists_path (h : s.FilledWithMoves)
    (hestimate : config.estimateClocks = true) (count : Nat) :
    ∃ steps final, s.Path config steps final ∧ steps.length = count ∧
      clocksOf steps = 4 * count ∧ final.FilledWithMoves := by
  induction count generalizing s with
  | zero => exact ⟨[], s, .nil s, rfl, rfl, h⟩
  | succ count ih =>
    obtain ⟨step, turn, hclocks, hnext⟩ := h.turn hestimate
    obtain ⟨steps, final, hpath, hlength, hsum, hfinal⟩ := ih hnext
    refine ⟨step :: steps, final, .cons turn hpath, ?_, ?_, hfinal⟩
    · rw [List.length_cons, hlength]
    · rw [clocksOf_cons, hclocks, hsum, Option.getD_some]
      omega

/-- A run through such a program ends with its limit. -/
theorem FilledWithMoves.trace (h : s.FilledWithMoves) (limit : Nat) :
    clocksOf (s.trace (.limited true limit)).report = 4 * limit ∧
      (s.trace (.limited true limit)).ending = .limitReached ∧
      (s.trace (.limited true limit)).simulator.FilledWithMoves := by
  obtain ⟨steps, final, hpath, hlength, hsum, hfinal⟩ :=
    @exists_path s (.limited true limit) h rfl limit
  have hstops : final.Stops (.limited true limit) (limit - steps.length) final .limitReached := by
    rw [hlength, Nat.sub_self]
    exact .spent (inProgram_of_fillsMemory hfinal.fills) rfl
  rw [trace_eq_of_path hpath (Nat.le_of_eq hlength) hstops]
  exact ⟨hsum, rfl, hfinal⟩

end Simulator

/-- Two runs of `2 ^ 61` moves each have room for their clocks, and the run of all of them has not:
in place it is a fault, and the total of 64 bits has come to zero again. -/
theorem whole_overflows :
    ∃ s : Simulator, Simulator.load {} (List.replicate 65536 0xB0) 0 = .ok s ∧
      let first := s.trace (.limited true (2 ^ 61))
      let second := first.simulator.trace (.limited true (2 ^ 61))
      let whole := s.trace (.limited true (2 ^ 61 + 2 ^ 61))
      first.ending = .limitReached ∧ first.clocks = some (UInt64.ofNat (2 ^ 63)) ∧
        second.ending = .limitReached ∧ second.clocks = some (UInt64.ofNat (2 ^ 63)) ∧
        (Checked.run (.limited true (2 ^ 61))).exec s = .ok (first.outcome, first.simulator) ∧
        (Checked.run (.limited true (2 ^ 61))).exec first.simulator =
          .ok (second.outcome, second.simulator) ∧
        whole.clocks = some 0 ∧
        (Checked.run (.limited true (2 ^ 61 + 2 ^ 61))).exec s = .error .overflow := by
  obtain ⟨s, hload, hfills, hread, hip⟩ := Simulator.exists_load_replicate 0xB0
  have hfilled : s.FilledWithMoves := ⟨hfills, hread, by rw [hip]; rfl⟩
  have hclocks : ∀ {t : Simulator} {limit : Nat}, t.FilledWithMoves →
      (t.trace (.limited true limit)).clocks = some (UInt64.ofNat (4 * limit)) := by
    intro t limit h
    rw [t.clocks_trace, (h.trace limit).1]
    rfl
  have hfits : ∀ {t : Simulator}, t.FilledWithMoves →
      (Checked.run (.limited true (2 ^ 61))).exec t =
        .ok ((t.trace (.limited true (2 ^ 61))).outcome,
          (t.trace (.limited true (2 ^ 61))).simulator) := by
    intro t h
    rw [Checked.exec_run_limited t true (by decide), Checked.unlessOverflow_of_fits]
    rw [(h.trace _).1]
    decide
  obtain ⟨-, hfirst, hnext⟩ := hfilled.trace (2 ^ 61)
  refine ⟨s, hload, hfirst, hclocks hfilled, (hnext.trace _).2.1, hclocks hnext, hfits hfilled,
    hfits hnext, hclocks hfilled, ?_⟩
  rw [Checked.exec_run_limited s true (by decide), Checked.unlessOverflow_of_overflow]
  rw [(hfilled.trace _).1]
  decide

end Machine8086
