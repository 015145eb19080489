import Machine8086.Proofs.ProgramEnd
import Machine8086.Session

/-!
# Programs at another place

A program whose instructions have no operand in memory runs alike wherever it is loaded. Two
simulators are displaced when the same program stands in both and their processors differ only in
the instruction pointer, which is at the same distance from the start (`Simulator.Displaced`). The
instruction that is due is then the same (`Simulator.Displaced.preview_eq`), and displaced
simulators stay so along the run, up to an end of the same kind (`Simulator.Displaced.path`,
`Simulator.Displaced.stops`). Addresses are counted modulo the size of memory, and so is their
difference (`run_position_independent`).
-/

namespace Machine8086

/-! ## Moved addresses -/

section Moved

variable (distance : UInt16)

/-- The processor with its instruction pointer moved on. -/
def Cpu.moved (c : Cpu) : Cpu := { c with ip := c.ip + distance }

/-- The effect with its jump to a moved target. -/
def Effect.moved (e : Effect) : Effect := { e with jump := e.jump.map (· + distance) }

/-- The instruction at a moved address. -/
def Decoded.moved (d : Decoded) : Decoded := { d with address := d.address + distance }

/-- The error at a moved address. -/
def DecodeError.moved : DecodeError → DecodeError
  | endOfStream => endOfStream
  | unknownOpcode opcode address => unknownOpcode opcode (address + distance)
  | missingBytes address needed => missingBytes (address + distance) needed

/-- The failed step at a moved address. -/
def StepError.moved : StepError → StepError
  | decode error => decode (error.moved distance)
  | execute d error => execute (d.moved distance) error

/-- The step at a moved address, between moved processors. -/
def Step.moved (s : Step) : Step where
  toDecoded := s.toDecoded.moved distance
  effect := s.effect.moved distance
  before := s.before.moved distance
  after := s.after.moved distance
  clocks := s.clocks

/-- The ending of a run at moved addresses. -/
def Ending.moved : Ending → Ending
  | leftProgram => leftProgram
  | limitReached => limitReached
  | stepFailed error => stepFailed (error.moved distance)
  | estimateFailed step => estimateFailed (step.moved distance)
  | counterFull step => counterFull (step.moved distance)

/-- The failure of a run at moved addresses; of those that a run has, only the failure to decode
names an address. -/
def Failure.moved : Failure → Failure
  | decode error => decode (error.moved distance)
  | failure => failure

/-- The summary of a run at moved addresses. -/
def RunSummary.moved (summary : RunSummary) : RunSummary :=
  { summary with registers := summary.registers.moved distance }

@[simp] theorem Cpu.read_moved (c : Cpu) (r : Register) : (c.moved distance).read r = c.read r := by
  cases r <;> rfl

theorem Cpu.write_moved (c : Cpu) (r : Register) (value : UInt16) :
    (c.moved distance).write r value = (c.write r value).moved distance := by
  cases r <;> rfl

theorem Effect.onCpu_moved (e : Effect) (c : Cpu) :
    (e.moved distance).onCpu (c.moved distance) = (e.onCpu c).moved distance := by
  obtain ⟨flags, store, jump⟩ := e
  -- only the jump is written to the instruction pointer, and it is written last
  have hflags : ({ flags := flags } : Effect).onCpu (c.moved distance) =
      (({ flags := flags } : Effect).onCpu c).moved distance := by
    cases flags <;> rfl
  have hstore : ({ flags := flags, store := store } : Effect).onCpu (c.moved distance) =
      (({ flags := flags, store := store } : Effect).onCpu c).moved distance := by
    match store with
    | none => exact hflags
    | some (.memory address w value) => exact hflags
    | some (.register r value) =>
      exact (congrArg (Cpu.write · r value) hflags).trans (Cpu.write_moved ..)
  cases jump with
  | none => exact hstore
  | some target => exact congrArg (fun c => { c with ip := target + distance }) hstore

theorem Decoded.next_moved (d : Decoded) : (d.moved distance).next = d.next + distance := by
  rw [next, next, moved, UInt16.add_assoc, UInt16.add_assoc, UInt16.add_comm distance]

theorem clocksOf_map_moved (steps : List Step) :
    clocksOf (steps.map (Step.moved distance)) = clocksOf steps := by
  rw [clocksOf, List.map_map]
  rfl

theorem RunConfig.reported?_moved (config : RunConfig) (step : Step) :
    config.reported? (step.moved distance) = (config.reported? step).map (Step.moved distance) := by
  rw [reported?, reported?]
  split
  · simp only [Option.map_map]
    rfl
  · rfl

theorem RunResult.outcome_moved {ρ σ : Type} {r : RunResult ρ} {r' : RunResult σ}
    (hending : r'.ending = r.ending.moved distance)
    (hsummary : r'.summary = r.summary.moved distance) :
    r'.outcome =
      (r.outcome.map (RunSummary.moved distance)).mapError (Failure.moved distance) := by
  rw [outcome, outcome, hending, hsummary]
  cases r.ending with
  | leftProgram => rfl
  | limitReached => rfl
  | stepFailed e => cases e <;> rfl
  | estimateFailed step => rfl
  | counterFull step => rfl

end Moved

/-! ## Instructions without memory operands -/

/-- One of the operands is in memory. -/
def Instruction.HasMemoryOperand (i : Instruction) : Prop :=
  ∃ o, i.destination? = some (.memory o) ∨ i.source? = some (.memory o)

theorem sourceValue_moved (m n : Memory) (c : Cpu) (distance : UInt16) (w : Width) {source : Source}
    (h : ∀ o, source ≠ .memory o) :
    sourceValue n (c.moved distance) w source = sourceValue m c w source := by
  cases source with
  | register r => rw [sourceValue, sourceValue, Cpu.read_moved]
  | immediate imm => rfl
  | memory o => exact absurd rfl (h o)

theorem storeTo_moved (c : Cpu) (distance : UInt16) (w : Width) (value : UInt16)
    {destination : Operand} (h : ∀ o, destination ≠ .memory o) :
    storeTo (c.moved distance) w value destination = storeTo c w value destination := by
  cases destination with
  | register r => rfl
  | memory o => exact absurd rfl (h o)

/-- Without an operand in memory, an instruction does the same at a moved instruction pointer,
whatever is in memory. -/
theorem effect_moved (m n : Memory) (c : Cpu) (distance : UInt16) {i : Instruction}
    (h : ¬ i.HasMemoryOperand) :
    effect n (c.moved distance) i = (effect m c i).map (Effect.moved distance) := by
  obtain ⟨operation, operands⟩ := i
  cases operands with
  | relative offset =>
    cases operation with
    | jne =>
      have htarget : c.ip + distance + offset.toInt16.toUInt16 =
          c.ip + offset.toInt16.toUInt16 + distance := by
        rw [UInt16.add_assoc, UInt16.add_assoc, UInt16.add_comm distance]
      simp only [effect, Except.map, Cpu.moved, Effect.moved, htarget]
      split <;> rfl
    | _ => rfl
  | pair destination source =>
    have hdestination : ∀ o, destination ≠ .memory o :=
      fun o ho => h ⟨o, .inl (congrArg some ho)⟩
    have hsource : ∀ o, source ≠ .memory o := fun o ho => h ⟨o, .inr (congrArg some ho)⟩
    have hread : ∀ o, destination.toSource ≠ .memory o := by
      intro o ho
      cases destination with
      | register r => cases ho
      | memory o => exact hdestination o rfl
    have hvalue := fun w => sourceValue_moved m n c distance w hsource
    have hother := fun w => sourceValue_moved m n c distance w hread
    have hstore := fun w value => storeTo_moved c distance w value hdestination
    -- the width is a matter of the operands alone
    cases operation with
    | mov =>
      simp only [effect, moveEffect, hstore, hvalue]
      cases (Operands.pair destination source).executedWidth <;> rfl
    | add =>
      simp only [effect, arithmeticEffect, sumOf, hstore, hvalue, hother]
      cases (Operands.pair destination source).executedWidth <;> rfl
    | sub =>
      simp only [effect, arithmeticEffect, differenceOf, hstore, hvalue, hother]
      cases (Operands.pair destination source).executedWidth <;> rfl
    | cmp =>
      simp only [effect, compareEffect, differenceOf, hvalue, hother]
      cases (Operands.pair destination source).executedWidth <;> rfl
    | _ => rfl

/-- What can be decoded and is not executed is a jump, which has no operand in memory. -/
theorem not_hasMemoryOperand_of_effect_error {m : Memory} {c : Cpu} {i : Instruction}
    {e : ExecuteError} (hwell : i.WellFormed) (h : effect m c i = .error e) :
    ¬ i.HasMemoryOperand := by
  obtain ⟨⟨offset, hoffset⟩, -⟩ := effect_error_of_wellFormed hwell h
  rintro ⟨o, ho | ho⟩
  · rw [Instruction.destination?, hoffset] at ho
    cases ho
  · rw [Instruction.source?, hoffset] at ho
    cases ho

/-! ## Displaced simulators -/

/-- Decoding at another address, where the same bytes stand before the bound, gives the same at that
address. -/
theorem decode_moved {m n : Memory} {address distance : UInt16} {stop stop' : Nat}
    (havailable : min stop' addressSpace - (address + distance).toNat =
      min stop addressSpace - address.toNat)
    (hread : ∀ i < min stop addressSpace - address.toNat,
      n.read (address + distance + UInt16.ofNat i) = m.read (address + UInt16.ofNat i)) :
    decode n (address + distance) stop' =
      ((decode m address stop).map (Decoded.moved distance)).mapError
        (DecodeError.moved distance) := by
  rw [decode, decode, havailable]
  by_cases hempty : min stop addressSpace - address.toNat = 0
  · rw [if_pos hempty, if_pos hempty]
    rfl
  · have hopcode : n.read (address + distance) = m.read address := by
      simpa using hread 0 (Nat.pos_of_ne_zero hempty)
    have htail : n.readBytes (address + distance + 1)
          (min 5 (min stop addressSpace - address.toNat - 1)) =
        m.readBytes (address + 1) (min 5 (min stop addressSpace - address.toNat - 1)) := by
      refine Memory.readBytes_congr fun i hi => ?_
      have hnext : 1 + UInt16.ofNat i = UInt16.ofNat (i + 1) := by
        rw [UInt16.ofNat_add, UInt16.add_comm]
        rfl
      rw [UInt16.add_assoc, UInt16.add_assoc address 1, hnext]
      exact hread (i + 1) (by omega)
    rw [if_neg hempty, if_neg hempty, hopcode, htail]
    dsimp only
    split <;> rfl

namespace Simulator

/-- The same program of some length stands at two places, and the processors differ in their
instruction pointers only, which are as far apart as the programs. -/
structure Displaced (distance : UInt16) (length : Nat) (s s' : Simulator) : Prop where
  programStart : s'.programStart = s.programStart + distance
  programEnd : s.programEnd = s.programStart.toNat + length
  programEnd' : s'.programEnd = s'.programStart.toNat + length
  space : s.programEnd ≤ addressSpace
  space' : s'.programEnd ≤ addressSpace
  program : ∀ i < length, s'.memory.read (s'.programStart + UInt16.ofNat i) =
    s.memory.read (s.programStart + UInt16.ofNat i)
  cpu : s'.cpu = s.cpu.moved distance

/-- Whether the instruction pointer is in the program is a matter of its distance from the start. -/
theorem inProgram_iff_distance {s : Simulator} {length : Nat}
    (hend : s.programEnd = s.programStart.toNat + length) (hspace : s.programEnd ≤ addressSpace) :
    s.inProgram = true ↔ (s.cpu.ip - s.programStart).toNat < length := by
  have hip := s.cpu.ip.toNat_lt
  have htop : addressSpace = 65536 := rfl
  rw [inProgram_iff, hend, UInt16.toNat_sub]
  omega

namespace Displaced

variable {distance : UInt16} {length : Nat} {s s' : Simulator}

theorem ip_sub_start (h : s.Displaced distance length s') :
    s'.cpu.ip - s'.programStart = s.cpu.ip - s.programStart := by
  rw [h.programStart, h.cpu]
  apply UInt16.toNat_inj.mp
  simp only [Cpu.moved, UInt16.toNat_sub, UInt16.toNat_add]
  have hip := s.cpu.ip.toNat_lt
  have hstart := s.programStart.toNat_lt
  omega

theorem inProgram_eq (h : s.Displaced distance length s') : s'.inProgram = s.inProgram := by
  rw [Bool.eq_iff_iff, inProgram_iff_distance h.programEnd' h.space',
    inProgram_iff_distance h.programEnd h.space, h.ip_sub_start]

/-- In the program, the same is decoded at both places. -/
theorem decode_eq (h : s.Displaced distance length s') (hin : s.inProgram = true) :
    decode s'.memory s'.cpu.ip s'.programEnd =
      ((decode s.memory s.cpu.ip s.programEnd).map (Decoded.moved distance)).mapError
        (DecodeError.moved distance) := by
  have hin' : s'.inProgram = true := h.inProgram_eq.trans hin
  have hip : s'.cpu.ip = s.cpu.ip + distance := congrArg Cpu.ip h.cpu
  have hdistance := congrArg UInt16.toNat h.ip_sub_start
  obtain ⟨hlow, hhigh⟩ := (inProgram_iff s).1 hin
  obtain ⟨hlow', hhigh'⟩ := (inProgram_iff s').1 hin'
  rw [UInt16.toNat_sub_of_le _ _ hlow, UInt16.toNat_sub_of_le _ _ hlow'] at hdistance
  have hend := h.programEnd
  have hend' := h.programEnd'
  have hspace := h.space
  have hspace' := h.space'
  rw [hip]
  refine decode_moved ?_ fun i hi => ?_
  · rw [← hip]
    omega
  · -- the byte stands at the same distance from the start of either program
    have hbyte := h.program (s.cpu.ip.toNat - s.programStart.toNat + i) (by omega)
    have hplace : ∀ a b : UInt16, b.toNat ≤ a.toNat →
        b + UInt16.ofNat (a.toNat - b.toNat + i) = a + UInt16.ofNat i := by
      intro a b hle
      rw [UInt16.ofNat_add, ← UInt16.add_assoc, ← UInt16.toNat_sub_of_le _ _ hle,
        UInt16.ofNat_toNat, UInt16.add_comm b, UInt16.sub_add_cancel]
    rw [hplace _ _ hlow, ← hdistance, hplace _ _ hlow'] at hbyte
    rw [← hip]
    exact hbyte

/-- In the program, the same step is due at both places, or the same error, if the step has no
operand in memory. -/
theorem preview_eq (h : s.Displaced distance length s') (hin : s.inProgram = true)
    (hregisters : ∀ step, s.preview s.programEnd = .ok step →
      ¬ step.instruction.HasMemoryOperand) :
    s'.preview s'.programEnd =
      ((s.preview s.programEnd).map (Step.moved distance)).mapError (StepError.moved distance) := by
  have hdecode' := h.decode_eq hin
  rw [preview] at hregisters
  rw [preview, preview, hdecode']
  cases hdecode : decode s.memory s.cpu.ip s.programEnd with
  | error e => rfl
  | ok d =>
    have hdecodable : d.instruction.Decodable := ⟨s.memory, _, _, d, hdecode, rfl⟩
    have hwell := (Instruction.decodable_iff_wellFormed _).1 hdecodable
    have hadvanced : { s'.cpu with ip := (d.moved distance).next } =
        Cpu.moved distance { s.cpu with ip := d.next } := by
      rw [d.next_moved, h.cpu]
      rfl
    rw [hdecode] at hregisters
    simp only [Except.map, Except.mapError] at hregisters ⊢
    rw [hadvanced]
    cases heffect : effect s.memory { s.cpu with ip := d.next } d.instruction with
    | error e =>
      -- nothing is assumed of an instruction that is not executed, but it can only be a jump
      have hnone := not_hasMemoryOperand_of_effect_error hwell heffect
      rw [show (d.moved distance).instruction = d.instruction from rfl,
        effect_moved s.memory _ _ _ hnone, heffect]
      rfl
    | ok e =>
      rw [heffect] at hregisters
      have hnone : ¬ d.instruction.HasMemoryOperand := hregisters _ rfl
      rw [show (d.moved distance).instruction = d.instruction from rfl,
        effect_moved s.memory _ _ _ hnone, heffect]
      simp only [Except.map, Effect.onCpu_moved, h.cpu]
      rfl

/-- Displaced simulators stay so by a step without an operand in memory. -/
theorem commit (h : s.Displaced distance length s') {stop : Nat} {step : Step}
    (hstep : s.IsStep stop step) (hnone : ¬ step.instruction.HasMemoryOperand) :
    (s.commit step).Displaced distance length (s'.commit (step.moved distance)) := by
  have hmemory : ∀ m : Memory, step.effect.onMemory m = m := by
    intro m
    exact hstep.hasEffect.onMemory_eq (fun _ o ho => hnone ⟨o, .inl ho⟩) m
  have hmemory' : (step.moved distance).effect.onMemory s'.memory = s'.memory :=
    hmemory s'.memory
  refine { h with program := fun i hi => ?_, cpu := rfl }
  simp only [Simulator.commit, hmemory, hmemory']
  exact h.program i hi

variable {config : RunConfig} {reached final : Simulator}

/-- A turn without an operand in memory is taken at both places. -/
theorem turn (h : s.Displaced distance length s') {step : Step} (hturn : s.Turn config step)
    (hnone : ¬ step.instruction.HasMemoryOperand) : s'.Turn config (step.moved distance) where
  inProgram := h.inProgram_eq.trans hturn.inProgram
  preview := by
    rw [h.preview_eq hturn.inProgram, hturn.preview]
    · rfl
    · intro other hother
      cases hturn.preview.symm.trans hother
      exact hnone
  reported := by
    have hreported := config.reported?_moved distance step.withoutClocks
    rw [hturn.reported] at hreported
    exact hreported

/-- A path without operands in memory is taken at both places. -/
theorem path {steps : List Step} (hpath : s.Path config steps reached)
    (h : s.Displaced distance length s')
    (hnone : ∀ step ∈ steps, ¬ step.instruction.HasMemoryOperand) :
    ∃ reached', s'.Path config (steps.map (Step.moved distance)) reached' ∧
      reached.Displaced distance length reached' := by
  induction hpath generalizing s' with
  | nil s => exact ⟨s', .nil s', h⟩
  | @cons s final step steps hturn rest ih =>
    have hfirst := hnone step List.mem_cons_self
    have hnext := h.commit hturn.isStep hfirst
    obtain ⟨reached', hpath', hreached⟩ :=
      ih hnext fun other hother => hnone other (List.mem_cons_of_mem _ hother)
    exact ⟨reached', .cons (h.turn hturn hfirst) hpath', hreached⟩

/-- Where the run stops at one place, it stops at the other, for the same reason. -/
theorem stops (h : s.Displaced distance length s') {budget : Nat} {ending : Ending}
    (hstops : s.Stops config budget final ending)
    (hnone : ∀ step ∈ ending.unreported, ¬ step.instruction.HasMemoryOperand) :
    ∃ final', s'.Stops config budget final' (ending.moved distance) ∧
      final.Displaced distance length final' := by
  have hin := h.inProgram_eq
  cases hstops with
  | left hleft => exact ⟨s', .left (hin.trans hleft), h⟩
  | spent hprogram hspent => exact ⟨s', .spent (hin.trans hprogram) hspent, h⟩
  | failed hfailed hgoes hpreview =>
    refine ⟨s', .failed (hin.trans hfailed) hgoes ?_, h⟩
    rw [h.preview_eq hfailed, hpreview]
    · rfl
    · intro step hstep
      cases hpreview.symm.trans hstep
  | @unestimated _ _ step hunestimated hgoes hpreview hreported =>
    have hfirst := hnone step List.mem_cons_self
    refine ⟨s'.commit (step.moved distance), .unestimated (hin.trans hunestimated) hgoes ?_ ?_, ?_⟩
    · rw [h.preview_eq hunestimated, hpreview]
      · rfl
      · intro other hother
        cases hpreview.symm.trans hother
        exact hfirst
    · rw [RunConfig.reported?_moved, hreported]
      rfl
    · exact h.commit ((preview_eq_ok_iff ..).1 hpreview) hfirst
  | uncounted hgoes turn =>
    have hfirst := hnone _ List.mem_cons_self
    have hnext := h.commit turn.isStep hfirst
    exact ⟨_, .uncounted hgoes (h.turn turn hfirst), hnext⟩

/-- A program that is loaded twice, with the same registers and flags. -/
theorem of_load {t t' : Simulator} {program : List UInt8} {start start' : UInt16}
    (hload : s.load program start = .ok t) (hload' : s'.load program start' = .ok t')
    (hcpu : s'.cpu = { s.cpu with ip := s'.cpu.ip }) :
    t.Displaced (start' - start) program.length t' := by
  have hprogram : ∀ i < program.length, t'.memory.read (start' + UInt16.ofNat i) =
      t.memory.read (start + UInt16.ofNat i) := by
    intro i hi
    exact Option.some.inj
      ((getElem?_of_load_at hload' hi).symm.trans (getElem?_of_load_at hload hi))
  have hshift : start + (start' - start) = start' := by
    rw [UInt16.add_comm, UInt16.sub_add_cancel]
  obtain ⟨hspace, rfl⟩ := (load_eq_ok_iff ..).1 hload
  obtain ⟨hspace', rfl⟩ := (load_eq_ok_iff ..).1 hload'
  refine ⟨hshift.symm, rfl, rfl, hspace, hspace', hprogram, ?_⟩
  show { s'.cpu with ip := start' } = { s.cpu with ip := start + (start' - start) }
  rw [hshift, hcpu]

end Displaced

end Simulator

/-- A run without operands in memory does not depend on where the program is loaded. Loaded at two
places, beside any other bytes and with the same registers and flags, the program takes the same
steps, as many and with the same clocks; at the second place all addresses of steps and values of
the instruction pointer are moved by the difference of the places, modulo the size of memory. The
run ends alike, in success or in the same error at the moved address. -/
theorem run_position_independent {s s' t t' : Simulator} {program : List UInt8}
    {start start' : UInt16} {config : RunConfig} (hload : s.load program start = .ok t)
    (hload' : s'.load program start' = .ok t') (hcpu : s'.cpu = { s.cpu with ip := s'.cpu.ip })
    (hnone : ∀ step ∈ (t.trace config).executed, ¬ step.instruction.HasMemoryOperand) :
    let distance := start' - start
    let run := t.trace config
    let run' := t'.trace config
    run'.report = run.report.map (Step.moved distance) ∧ run'.steps = run.steps ∧
      run'.clocks = run.clocks ∧ run'.ending = run.ending.moved distance ∧
      run'.simulator.cpu = run.simulator.cpu.moved distance ∧
      run'.outcome =
        (run.outcome.map (RunSummary.moved distance)).mapError (Failure.moved distance) := by
  intro distance run run'
  obtain ⟨steps, reached, final, ending, hpath, hlength, hstops⟩ :=
    Simulator.exists_path config config.budget t
  have hrun : run = _ := Simulator.trace_eq_of_path hpath hlength hstops
  have hexecuted : run.executed = steps ++ ending.unreported := by
    rw [hrun]
    rfl
  rw [hexecuted] at hnone
  have hdisplaced := Simulator.Displaced.of_load hload hload' hcpu
  obtain ⟨reached', hpath', hreached⟩ := hdisplaced.path hpath
    fun step hstep => hnone step (List.mem_append_left _ hstep)
  obtain ⟨final', hstops', hfinal⟩ := hreached.stops hstops
    fun step hstep => hnone step (List.mem_append_right _ hstep)
  rw [← List.length_map (Step.moved distance)] at hlength hstops'
  have hrun' : run' = _ := Simulator.trace_eq_of_path hpath' hlength hstops'
  have hclocks : run'.clocks = run.clocks := by
    rw [hrun, hrun']
    dsimp only
    rw [clocksOf_map_moved]
  have hsteps : run'.steps = run.steps := by
    rw [hrun, hrun']
    exact List.length_map _
  have hending : run'.ending = run.ending.moved distance := by rw [hrun, hrun']
  have hregisters : run'.simulator.cpu = run.simulator.cpu.moved distance := by
    rw [hrun, hrun']
    exact hfinal.cpu
  refine ⟨by rw [hrun, hrun'], hsteps, hclocks, hending, hregisters, ?_⟩
  apply RunResult.outcome_moved distance hending
  rw [Progress.summary, Progress.summary, hregisters, hsteps, hclocks]
  rfl

/-- `mov cx, 2` with a loop of `sub cx, 1` and `jne $-3` behind it ends after five steps at the end
of its program; in the last eight bytes of memory that is the address 0. A byte that starts no
instruction is refused at the address where it stands. -/
theorem run_position_independent_loop :
    (∃ t t' : Simulator,
      Simulator.load {} [0xB9, 0x02, 0x00, 0x83, 0xE9, 0x01, 0x75, 0xFB] 0 = .ok t ∧
        Simulator.load {} [0xB9, 0x02, 0x00, 0x83, 0xE9, 0x01, 0x75, 0xFB] 0xFFF8 = .ok t' ∧
        (∀ step ∈ (t.trace {}).executed, ¬ step.instruction.HasMemoryOperand) ∧
        (t.trace {}).outcome = .ok ⟨{ ip := 8, flags := { zero := true } }, 5, none⟩ ∧
        (t'.trace {}).outcome = .ok ⟨{ ip := 0, flags := { zero := true } }, 5, none⟩) ∧
      ∃ t t' : Simulator, Simulator.load {} [0x90] 0 = .ok t ∧
        Simulator.load {} [0x90] 0x1000 = .ok t' ∧
        (t.trace {}).outcome = .error (.decode (.unknownOpcode 0x90 0)) ∧
        (t'.trace {}).outcome = .error (.decode (.unknownOpcode 0x90 0x1000)) := by
  constructor
  · obtain ⟨t, hload, hinstructions, hending, hsummary⟩ : ∃ t : Simulator,
        Simulator.load {} [0xB9, 0x02, 0x00, 0x83, 0xE9, 0x01, 0x75, 0xFB] 0 = .ok t ∧
          (∀ step ∈ (t.trace {}).executed, step.instruction ∈
            [Instruction.pair .mov (.register .cx) (.immediate (.ofWord 2)),
              .pair .sub (.register .cx) (.immediate (.ofWord 1)), .jump .jne (-5)]) ∧
          (t.trace {}).ending = .leftProgram ∧
          (t.trace {}).summary = ⟨{ ip := 8, flags := { zero := true } }, 5, none⟩ :=
      ⟨_, rfl, by decide +kernel, by decide +kernel, by decide +kernel⟩
    have hrun : (t.trace {}).outcome = .ok ⟨{ ip := 8, flags := { zero := true } }, 5, none⟩ := by
      rw [RunResult.outcome, hending, hsummary]
    obtain ⟨t', hload'⟩ : ∃ t' : Simulator,
        Simulator.load {} [0xB9, 0x02, 0x00, 0x83, 0xE9, 0x01, 0x75, 0xFB] 0xFFF8 = .ok t' :=
      ⟨_, (Simulator.load_eq_ok_iff ..).2 ⟨by decide, rfl⟩⟩
    have hnone : ∀ step ∈ (t.trace {}).executed, ¬ step.instruction.HasMemoryOperand := by
      intro step hstep
      have hinstruction := hinstructions step hstep
      simp only [List.mem_cons, List.not_mem_nil, or_false] at hinstruction
      rcases hinstruction with h | h | h
      all_goals
        rw [h]
        rintro ⟨o, ho | ho⟩ <;> cases ho
    obtain ⟨-, -, -, -, -, hrun'⟩ := run_position_independent hload hload' rfl hnone
    rw [hrun] at hrun'
    exact ⟨t, t', hload, hload', hnone, hrun, hrun'⟩
  · obtain ⟨t, hload, hexecuted, hrun⟩ : ∃ t : Simulator, Simulator.load {} [0x90] 0 = .ok t ∧
        (t.trace {}).executed = [] ∧
        (t.trace {}).outcome = .error (.decode (.unknownOpcode 0x90 0)) := ⟨_, rfl, rfl, rfl⟩
    obtain ⟨t', hload'⟩ : ∃ t' : Simulator, Simulator.load {} [0x90] 0x1000 = .ok t' :=
      ⟨_, (Simulator.load_eq_ok_iff ..).2 ⟨by decide, rfl⟩⟩
    have hnone : ∀ step ∈ (t.trace {}).executed, ¬ step.instruction.HasMemoryOperand := by
      rw [hexecuted]
      intro step hstep
      cases hstep
    obtain ⟨-, -, -, -, -, hrun'⟩ := run_position_independent hload hload' rfl hnone
    rw [hrun] at hrun'
    exact ⟨t, t', hload, hload', hrun, hrun'⟩

end Machine8086
