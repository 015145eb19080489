import Machine8086.Proofs.StraightLine

/-!
# The end of the program

An instruction that ends where the program ends, and does not jump, is the last one that a run
executes, if the program leaves room in memory (`run_ends_at_program_end`). A program that fills
memory has no address behind it: from its last byte the instruction pointer wraps to its first, and
the run goes on there (`full_program_runs_on`).
-/

namespace Machine8086

/-! ## Executed steps -/

/-- The step that was executed but not reported, if the run ended for want of its estimate or of
room in the step counter. -/
def Ending.unreported : Ending → List Step
  | estimateFailed step => [step]
  | counterFull step => [step]
  | _ => []

/-- The steps that a run executed, in order. -/
def RunResult.executed (r : RunResult (List Step)) : List Step :=
  r.report ++ r.ending.unreported

namespace Simulator

/-- Steps in the program, one after the other. -/
inductive Executes : Simulator → List Step → Simulator → Prop
  | nil (s : Simulator) : Executes s [] s
  | cons {s final : Simulator} {step : Step} {steps : List Step} (hin : s.inProgram = true)
      (first : s.IsStep s.programEnd step.withoutClocks)
      (rest : Executes (s.commit step) steps final) : Executes s (step :: steps) final

variable {config : RunConfig} {s middle final : Simulator} {step : Step}

theorem Path.executes {steps : List Step} (h : s.Path config steps final) :
    s.Executes steps final := by
  induction h with
  | nil s => exact .nil s
  | cons turn rest ih => exact .cons turn.inProgram turn.isStep ih

theorem Stops.executes {budget : Nat} {ending : Ending}
    (h : s.Stops config budget final ending) : s.Executes ending.unreported final := by
  cases h with
  | left hin => exact .nil s
  | spent hin hspent => exact .nil s
  | failed hin hgoes hpreview => exact .nil s
  | unestimated hin hgoes hpreview hreported =>
    obtain ⟨hdecoded, heffect, hbefore, hafter, -⟩ := (preview_eq_ok_iff ..).1 hpreview
    exact .cons hin ⟨hdecoded, heffect, hbefore, hafter, rfl⟩ (.nil _)
  | uncounted hgoes turn => exact .cons turn.inProgram turn.isStep (.nil _)

namespace Executes

variable {before after steps : List Step}

theorem append (h : s.Executes before middle) (h' : middle.Executes after final) :
    s.Executes (before ++ after) final := by
  induction h with
  | nil s => exact h'
  | cons hin first rest ih => exact .cons hin first (ih h')

/-- Each executed step is the step due at some point, and the steps after it go on from there. -/
theorem split (h : s.Executes (before ++ step :: after) final) :
    ∃ t : Simulator, t.programStart = s.programStart ∧ t.programEnd = s.programEnd ∧
      t.IsStep t.programEnd step.withoutClocks ∧ (t.commit step).Executes after final := by
  induction before generalizing s with
  | nil =>
    cases h with
    | cons hin first rest => exact ⟨s, rfl, rfl, first, rest⟩
  | cons first before ih =>
    cases h with
    | cons hin first rest =>
      obtain ⟨t, hstart, hend, hstep, hafter⟩ := ih rest
      exact ⟨t, hstart, hend, hstep, hafter⟩

/-- Out of the program nothing is executed. -/
theorem eq_nil_of_left (h : s.Executes steps final) (hleft : s.inProgram = false) :
    steps = [] ∧ final = s := by
  cases h with
  | nil s => exact ⟨rfl, rfl⟩
  | cons hin first rest => cases hleft.symm.trans hin

end Executes

/-- A run executes its steps one after the other, to the end. -/
theorem executes_trace (s : Simulator) (config : RunConfig) :
    s.Executes (s.trace config).executed (s.trace config).simulator := by
  obtain ⟨reached, hpath, -, hstops⟩ := s.trace_path config
  exact hpath.executes.append hstops.executes

/-! ## How runs end -/

/-- A run that is out of the program has ended for that, or with a step that it did not report. -/
theorem Stops.ending_of_left {budget : Nat} {ending : Ending}
    (h : s.Stops config budget final ending) (hleft : final.inProgram = false) :
    ending = .leftProgram ∨ (∃ last, ending = .estimateFailed last) ∨
      ∃ last, ending = .counterFull last := by
  cases h with
  | left hin => exact .inl rfl
  | spent hin hspent => cases hleft.symm.trans hin
  | failed hin hgoes hpreview => cases hleft.symm.trans hin
  | @unestimated _ _ last hin hgoes hpreview hreported => exact .inr (.inl ⟨last, rfl⟩)
  | uncounted hgoes turn => exact .inr (.inr ⟨_, rfl⟩)

/-- No run leaves a program that fills memory. -/
theorem Stops.ending_ne_leftProgram {budget : Nat} {ending : Ending}
    (h : s.Stops config budget final ending) (hfills : s.FillsMemory) : ending ≠ .leftProgram := by
  cases h with
  | left hin => cases hin.symm.trans (inProgram_of_fillsMemory hfills)
  | spent hin hspent => nofun
  | failed hin hgoes hpreview => nofun
  | unestimated hin hgoes hpreview hreported => nofun
  | uncounted hgoes turn => nofun

end Simulator

/-- If a run executes an instruction whose last byte is the last one of the program, and that is no
jump that is taken, the instruction pointer is the end of the program, modulo the size of memory. If
the program leaves room in memory, nothing is executed after it: the run has left the program, or
has failed as there was no estimate, or, without a limit, as the step was one more than can be
counted. If the program fills memory, the run has not left it; the instruction pointer is zero and
so still in the program. -/
theorem run_ends_at_program_end {s : Simulator} {config : RunConfig} {before after : List Step}
    {step : Step} (hspace : s.programEnd ≤ addressSpace)
    (hexecuted : (s.trace config).executed = before ++ step :: after)
    (hend : step.address.toNat + step.size = s.programEnd) (hjump : ¬ step.TakesJump) :
    step.after.ip = UInt16.ofNat s.programEnd ∧
      (¬ s.FillsMemory → after = [] ∧ (s.trace config).simulator.cpu = step.after ∧
        ((s.trace config).ending = .leftProgram ∨
          (∃ last, (s.trace config).ending = .estimateFailed last) ∨
          (∃ last, (s.trace config).ending = .counterFull last) ∧ config.stepLimit = none ∧
            (s.trace config).steps + 1 = counterRange)) ∧
      (s.FillsMemory → step.after.ip = 0 ∧ (s.trace config).ending ≠ .leftProgram) := by
  have hrun := s.executes_trace config
  rw [hexecuted] at hrun
  obtain ⟨t, htstart, htend, hstep, hrest⟩ := hrun.split
  have hip : step.after.ip = UInt16.ofNat s.programEnd := by
    rw [← hend]
    exact hstep.ip_after hjump
  obtain ⟨reached, hpath, -, hstops⟩ := s.trace_path config
  refine ⟨hip, fun hroom => ?_, fun hfills => ⟨?_, hstops.ending_ne_leftProgram ?_⟩⟩
  · have hleft : (t.commit step).inProgram = false := by
      apply Simulator.inProgram_eq_false_of_ip
      · exact htend.symm ▸ hspace
      · rwa [Simulator.FillsMemory, t.commit_programStart, t.commit_programEnd, htstart, htend]
      · rw [t.commit_programEnd, htend]
        exact hip
    obtain ⟨rfl, hfinal⟩ := hrest.eq_nil_of_left hleft
    rw [← hfinal] at hleft
    refine ⟨rfl, congrArg Simulator.cpu hfinal, ?_⟩
    rcases hstops.ending_of_left hleft with hending | hending | ⟨last, hending⟩
    · exact .inl hending
    · exact .inr (.inl hending)
    · rw [s.steps_trace]
      exact .inr (.inr ⟨⟨last, hending⟩, Simulator.trace_of_counterFull hending⟩)
  · rw [hip, hfills.2]
    rfl
  · rwa [Simulator.FillsMemory, hpath.programStart_eq, hpath.programEnd_eq]

/-- `mov ax, 5`, loaded at 0, ends where its program ends; nothing is executed after it. -/
theorem run_ends_at_program_end_mov :
    ∃ (s : Simulator) (step : Step), Simulator.load {} [0xB8, 0x05, 0x00] 0 = .ok s ∧
      s.programEnd ≤ addressSpace ∧ (s.trace {}).executed = [] ++ step :: [] ∧
      step.address.toNat + step.size = s.programEnd ∧ ¬ step.TakesJump ∧ ¬ s.FillsMemory ∧
      (s.trace {}).simulator.cpu = step.after ∧ step.after.ip = 3 := by
  obtain ⟨s, step, hload, hexecuted, hextent, hend, hmov⟩ : ∃ (s : Simulator) (step : Step),
      Simulator.load {} [0xB8, 0x05, 0x00] 0 = .ok s ∧
        (s.trace {}).executed = [] ++ step :: [] ∧ s.programEnd = 3 ∧
        step.address.toNat + step.size = 3 ∧ step.instruction.operation = .mov :=
    ⟨_, _, rfl, rfl, rfl, rfl, rfl⟩
  have hspace : s.programEnd ≤ addressSpace := by
    rw [hextent]
    decide
  have hjump : ¬ step.TakesJump := by
    rintro ⟨hjne, -⟩
    cases hmov.symm.trans hjne
  have hroom : ¬ s.FillsMemory := by
    rintro ⟨-, hfull⟩
    cases hextent.symm.trans hfull
  rw [← hextent] at hend
  obtain ⟨hip, hlast, -⟩ := run_ends_at_program_end hspace hexecuted hend hjump
  rw [hextent] at hip
  exact ⟨s, step, hload, hspace, hexecuted, hend, hjump, hroom, (hlast hroom).2.1, hip⟩

/-- Memory is full of `cmp al, 60`, and the program is all of it. From the last two bytes on, a run
with two steps to take ends where the program ends after the first, and goes on to the second. -/
theorem full_program_runs_on :
    ∃ s t : Simulator, Simulator.load {} (List.replicate 65536 0x3C) 0 = .ok s ∧
      t = { s with cpu := { s.cpu with ip := 0xFFFE } } ∧
      ∃ first second : Step,
        (t.trace { stepLimit := some 2 }).executed = [] ++ first :: [second] ∧
          first.address.toNat + first.size = t.programEnd ∧ ¬ first.TakesJump ∧
          (t.trace { stepLimit := some 2 }).simulator.cpu.ip = 2 := by
  let cmp : Instruction := .pair .cmp (.register .al) (.immediate (.ofByte 0x3C))
  have hcode : Operation.cmp.arithmeticCode? = some 0b111 := rfl
  have hencodes : Encodes [0x3C, 0x3C] cmp := .arithmeticAccumulator hcode (.inl rfl) (.byte 0x3C)
  obtain ⟨s, hload, ⟨hstart, hend⟩, hread, -⟩ := Simulator.exists_load_replicate 0x3C
  have hdecode : ∀ position, position + 2 ≤ 65536 →
      decode s.memory (UInt16.ofNat position) addressSpace =
        .ok ⟨UInt16.ofNat position, 2, cmp⟩ := by
    intro position hposition
    rw [decode_eq_ok_iff, Memory.readBytes, Memory.readBytes, Memory.readBytes, hread, hread]
    refine ⟨rfl, ?_, hencodes⟩
    rw [UInt16.toNat_ofNat_of_lt' (show position < 65536 by omega)]
    exact hposition
  let t : Simulator := { s with cpu := { s.cpu with ip := 0xFFFE } }
  let config : RunConfig := { stepLimit := some 2 }
  have hestimate : config.estimateClocks = false := rfl
  have hlast : t.StandsAt s.memory addressSpace 65534 :=
    ⟨rfl, hend, by rw [hstart]; decide, by decide, rfl⟩
  obtain ⟨first, hfirst, hcmp, hwrapped⟩ :=
    hlast.turn (Nat.le_refl _) hestimate (by decide) (hdecode 65534 (by decide)) (.inl rfl)
  -- the end of the program is the address zero again
  have hwrap : UInt16.ofNat (65534 + 2) = UInt16.ofNat 0 := by decide
  have hzero : (t.commit first).StandsAt s.memory addressSpace 0 :=
    ⟨hwrapped.memory, hend, by rw [t.commit_programStart, hstart]; decide, by decide,
      hwrapped.ip.trans hwrap⟩
  obtain ⟨second, hsecond, -, hdone⟩ :=
    hzero.turn (Nat.le_refl _) hestimate (by decide) (hdecode 0 (by decide)) (.inl rfl)
  have hin : ((t.commit first).commit second).inProgram = true :=
    Simulator.inProgram_of_fillsMemory ⟨hstart, hend⟩
  have htrace := Simulator.trace_eq_of_path (.cons hfirst (.cons hsecond (.nil _))) (Nat.le_refl 2)
    (.spent hin rfl)
  have haddress : first.address = 0xFFFE := congrArg Decoded.address hcmp
  have hsize : first.size = 2 := congrArg Decoded.size hcmp
  have hoperation : first.instruction = cmp := congrArg Decoded.instruction hcmp
  refine ⟨s, t, hload, rfl, first, second, ?_, ?_, ?_, ?_⟩
  · rw [htrace]
    rfl
  · rw [haddress, hsize]
    exact hend.symm
  · rintro ⟨hjne, -⟩
    rw [hoperation] at hjne
    cases hjne
  · rw [htrace]
    exact hdone.ip

end Machine8086
