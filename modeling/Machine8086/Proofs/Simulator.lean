import Machine8086.Proofs.Meaning
import Machine8086.Simulator

/-!
# Loads and steps

What the operations of the simulator do, said once. A load that succeeds puts the program into
memory and the instruction pointer at its start (`Simulator.load_eq_ok_iff`). An instruction that is
executed has one of six effects (`HasEffect`), and a step is the instruction decoded at the
instruction pointer together with its effect (`Simulator.preview_eq_ok_iff`). A step does not depend
on the bound that its bytes are read with, once they lie within it (`Simulator.IsStep.mono`). Unless
a jump is taken, the instruction pointer goes to the end of the instruction
(`Simulator.IsStep.ip_after`).
-/

namespace Machine8086

/-! ## Loads -/

namespace Simulator

theorem load_eq_ok_iff (s t : Simulator) (program : List UInt8) (start : UInt16) :
    s.load program start = .ok t ↔
      start.toNat + program.length ≤ addressSpace ∧
        t = { memory := s.memory.writeBytes start program
              cpu := { s.cpu with ip := start }
              programStart := start
              programEnd := start.toNat + program.length } := by
  rw [load, Memory.load]
  split
  case isTrue h => simp [Except.map, h, eq_comm]
  case isFalse h => simp [Except.map, h]

/-- A loaded byte is the byte of the program at its distance from the start. -/
theorem getElem?_of_load {s t : Simulator} {program : List UInt8} {start address : UInt16}
    (h : s.load program start = .ok t) (hstart : start.toNat ≤ address.toNat)
    (hend : address.toNat < start.toNat + program.length) :
    program[address.toNat - start.toNat]? = some (t.memory.read address) := by
  obtain ⟨hspace, rfl⟩ := (load_eq_ok_iff ..).1 h
  have hlength : program.length ≤ addressSpace := by omega
  have hdistance : (address - start).toNat = address.toNat - start.toNat :=
    UInt16.toNat_sub_of_le _ _ hstart
  have hbyte : address.toNat - start.toNat < program.length := by omega
  rw [Memory.read_writeBytes _ _ _ hlength, hdistance, List.getElem?_eq_getElem hbyte]
  rfl

/-- The bytes of a loaded program, by their distance from its start. -/
theorem getElem?_of_load_at {s t : Simulator} {program : List UInt8} {start : UInt16} {i : Nat}
    (hload : s.load program start = .ok t) (hi : i < program.length) :
    program[i]? = some (t.memory.read (start + UInt16.ofNat i)) := by
  obtain ⟨hspace, -⟩ := (load_eq_ok_iff ..).1 hload
  have htoNat : (start + UInt16.ofNat i).toNat = start.toNat + i := by
    have htop : addressSpace = 65536 := rfl
    rw [UInt16.toNat_add, UInt16.toNat_ofNat']
    omega
  have hbyte := @getElem?_of_load _ _ _ _ (start + UInt16.ofNat i) hload (by omega) (by omega)
  rwa [htoNat, Nat.add_sub_cancel_left] at hbyte

/-- The bytes of the program are the same whatever was in memory before the load. -/
theorem read_eq_of_load {s s' t t' : Simulator} {program : List UInt8} {start address : UInt16}
    (h : s.load program start = .ok t) (h' : s'.load program start = .ok t')
    (hstart : start.toNat ≤ address.toNat) (hend : address.toNat < start.toNat + program.length) :
    t.memory.read address = t'.memory.read address := by
  rw [← Option.some.injEq, ← getElem?_of_load h hstart hend, ← getElem?_of_load h' hstart hend]

theorem inProgram_iff (s : Simulator) :
    s.inProgram = true ↔
      s.programStart.toNat ≤ s.cpu.ip.toNat ∧ s.cpu.ip.toNat < s.programEnd := by
  rw [inProgram, Bool.and_eq_true, decide_eq_true_eq, decide_eq_true_eq]

/-- The program takes up the whole address space. -/
def FillsMemory (s : Simulator) : Prop := s.programStart = 0 ∧ s.programEnd = addressSpace

theorem inProgram_of_fillsMemory {s : Simulator} (h : s.FillsMemory) : s.inProgram = true := by
  rw [inProgram_iff, h.1, h.2]
  exact ⟨Nat.zero_le _, toNat_lt_addressSpace s.cpu.ip⟩

/-- A program of one byte, again and again, can fill memory. -/
theorem exists_load_replicate (byte : UInt8) :
    ∃ s : Simulator, Simulator.load {} (List.replicate 65536 byte) 0 = .ok s ∧ s.FillsMemory ∧
      (∀ address, s.memory.read address = byte) ∧ s.cpu.ip = 0 := by
  have hlength : (List.replicate 65536 byte).length = addressSpace := List.length_replicate
  refine ⟨_, (load_eq_ok_iff ..).2 ⟨?_, rfl⟩, ⟨rfl, ?_⟩, fun address => ?_, rfl⟩
  · rw [hlength]
    decide
  · rw [hlength]
    rfl
  · rw [Memory.read_writeBytes _ _ _ (Nat.le_of_eq hlength),
      List.getElem?_replicate_of_lt (UInt16.toNat_lt _)]
    rfl

/-- At the end of a program that leaves room in memory, the instruction pointer has left it. If the
program ends at the top of memory, the instruction pointer is zero there. -/
theorem inProgram_eq_false_of_ip {s : Simulator} (hspace : s.programEnd ≤ addressSpace)
    (hfills : ¬ s.FillsMemory) (hip : s.cpu.ip = UInt16.ofNat s.programEnd) :
    s.inProgram = false := by
  have htop : addressSpace = 65536 := rfl
  have htoNat : s.cpu.ip.toNat = s.programEnd % 65536 := by rw [hip, UInt16.toNat_ofNat']
  have hstart : s.programEnd = addressSpace → 0 < s.programStart.toNat := by
    intro hend
    apply Nat.pos_of_ne_zero
    intro hzero
    exact hfills ⟨UInt16.toNat_inj.mp hzero, hend⟩
  rw [Bool.eq_false_iff, ne_eq, inProgram_iff]
  omega

end Simulator

/-! ## Effects -/

/-- The effects of the instructions that are executed. -/
inductive HasEffect (m : Memory) (c : Cpu) : Instruction → Effect → Prop
  | mov {destination : Operand} {source : Source} {w : Width}
      (hw : (Operands.pair destination source).width? = some w) :
      HasEffect m c (.pair .mov destination source) (moveEffect m c destination source w)
  | add {destination : Operand} {source : Source} {w : Width}
      (hw : (Operands.pair destination source).width? = some w) :
      HasEffect m c (.pair .add destination source)
        (arithmeticEffect c destination w (sumOf m c destination source w))
  | sub {destination : Operand} {source : Source} {w : Width}
      (hw : (Operands.pair destination source).width? = some w) :
      HasEffect m c (.pair .sub destination source)
        (arithmeticEffect c destination w (differenceOf m c destination source w))
  | cmp {destination : Operand} {source : Source} {w : Width}
      (hw : (Operands.pair destination source).width? = some w) :
      HasEffect m c (.pair .cmp destination source)
        (compareEffect w (differenceOf m c destination source w))
  | jneTaken (offset : Int8) (hzero : c.flags.zero = false) :
      HasEffect m c (.jump .jne offset) { jump := some (c.ip + offset.toInt16.toUInt16) }
  | jneNotTaken (offset : Int8) (hzero : c.flags.zero = true) :
      HasEffect m c (.jump .jne offset) {}

theorem executedWidth_eq_ok_iff (operands : Operands) (w : Width) :
    operands.executedWidth = .ok w ↔ operands.width? = some w := by
  rw [Operands.executedWidth]
  cases operands.width? with
  | none => simp
  | some v => simp

theorem hasEffect_of_effect {m : Memory} {c : Cpu} {i : Instruction} {e : Effect}
    (h : effect m c i = .ok e) : HasEffect m c i e := by
  obtain ⟨operation, operands⟩ := i
  cases operands with
  | pair destination source =>
    cases hw : (Operands.pair destination source).executedWidth with
    | error error => cases operation <;> simp [effect, hw, Except.map] at h
    | ok w =>
      have hwidth := (executedWidth_eq_ok_iff _ w).1 hw
      cases operation with
      | mov =>
        rw [effect, hw] at h
        cases h
        exact .mov hwidth
      | add =>
        rw [effect, hw] at h
        cases h
        exact .add hwidth
      | sub =>
        rw [effect, hw] at h
        cases h
        exact .sub hwidth
      | cmp =>
        rw [effect, hw] at h
        cases h
        exact .cmp hwidth
      | _ => cases h
  | relative offset =>
    cases operation with
    | jne =>
      cases h
      cases hzero : c.flags.zero with
      | false => exact .jneTaken offset hzero
      | true => exact .jneNotTaken offset hzero
    | _ => cases h

/-- Executing is carrying out an effect. -/
theorem exists_effect_of_execute {m m' : Memory} {c c' : Cpu} {i : Instruction}
    (h : execute m c i = .ok (m', c')) :
    ∃ e, effect m c i = .ok e ∧ e.onMemory m = m' ∧ e.onCpu c = c' := by
  rw [execute] at h
  cases heffect : effect m c i with
  | error error =>
    rw [heffect] at h
    cases h
  | ok e =>
    rw [heffect] at h
    cases h
    exact ⟨e, rfl, rfl, rfl⟩

/-- A well-formed instruction of an operation that is executed has an effect. -/
theorem exists_effect (m : Memory) (c : Cpu) {i : Instruction} (hi : i.WellFormed)
    (hop : i.operation ∈ executable) : ∃ e, effect m c i = .ok e := by
  obtain ⟨m', c', hmeaning⟩ := exists_meaning m c hi hop
  have hexec := hmeaning.execute_eq hi
  obtain ⟨e, heffect, -, -⟩ := exists_effect_of_execute hexec
  exact ⟨e, heffect⟩

theorem Operation.mem_executable_of_not_jump {operation : Operation}
    (h : operation.isRelativeJump = false) : operation ∈ executable := by
  cases operation <;> first | decide | cases h

/-- Of the well-formed instructions only jumps are not executed. -/
theorem effect_error_of_wellFormed {m : Memory} {c : Cpu} {i : Instruction} {e : ExecuteError}
    (hi : i.WellFormed) (h : effect m c i = .error e) :
    (∃ offset, i.operands = .relative offset) ∧ e = .unimplemented i.operation := by
  obtain ⟨operation, operands⟩ := i
  cases operands with
  | relative offset =>
    refine ⟨⟨offset, rfl⟩, ?_⟩
    cases operation <;> cases h <;> rfl
  | pair destination source =>
    obtain ⟨done, heffect⟩ := exists_effect m c hi (Operation.mem_executable_of_not_jump hi.1)
    cases h.symm.trans heffect

/-- Only a jump on a clear zero flag moves the instruction pointer, and only while that flag is
clear. -/
theorem HasEffect.jump_eq_none {m : Memory} {c : Cpu} {i : Instruction} {e : Effect}
    (h : HasEffect m c i e) (hjump : ¬ (i.operation = .jne ∧ c.flags.zero = false)) :
    e.jump = none := by
  cases h with
  | mov hw => rfl
  | add hw => rfl
  | sub hw => rfl
  | cmp hw => rfl
  | jneTaken offset hzero => exact absurd ⟨rfl, hzero⟩ hjump
  | jneNotTaken offset hzero => rfl

/-- Only to a destination in memory is anything stored there, and a comparison stores nothing. -/
theorem HasEffect.onMemory_eq {m : Memory} {c : Cpu} {i : Instruction} {e : Effect}
    (h : HasEffect m c i e)
    (hdestination : i.operation ≠ .cmp → ∀ o, i.destination? ≠ some (.memory o)) (n : Memory) :
    e.onMemory n = n := by
  have hstore : ∀ {destination : Operand} {w : Width} {value : UInt16} {flags : Option Flags},
      (∀ o, destination ≠ .memory o) →
        ({ flags := flags, store := some (storeTo c w value destination) } : Effect).onMemory n =
          n := by
    intro destination w value flags hregister
    cases destination with
    | register r => rfl
    | memory o => exact absurd rfl (hregister o)
  cases h with
  | cmp hw => rfl
  | jneTaken offset hzero => rfl
  | jneNotTaken offset hzero => rfl
  | mov hw => exact hstore fun o ho => hdestination nofun o (congrArg some ho)
  | add hw => exact hstore fun o ho => hdestination nofun o (congrArg some ho)
  | sub hw => exact hstore fun o ho => hdestination nofun o (congrArg some ho)

/-! ## Steps -/

/-- The step jumps: it is a jump on a clear zero flag, and the flag is clear. -/
def Step.TakesJump (s : Step) : Prop :=
  s.instruction.operation = .jne ∧ s.before.flags.zero = false

namespace Simulator

/-- The step at the instruction pointer, with instruction bytes before `stop`. -/
structure IsStep (s : Simulator) (stop : Nat) (step : Step) : Prop where
  decoded : decode s.memory s.cpu.ip stop = .ok step.toDecoded
  effect : effect s.memory { s.cpu with ip := step.next } step.instruction = .ok step.effect
  before : step.before = s.cpu
  after : step.after = step.effect.onCpu { s.cpu with ip := step.next }
  clocks : step.clocks = none

theorem preview_eq_ok_iff (s : Simulator) (stop : Nat) (step : Step) :
    s.preview stop = .ok step ↔ s.IsStep stop step := by
  rw [preview]
  constructor
  · intro h
    split at h
    case h_1 error hdecode => cases h
    case h_2 d hdecode =>
      dsimp only at h
      split at h
      case h_1 error heffect => cases h
      case h_2 e heffect =>
        cases h
        exact ⟨hdecode, heffect, rfl, rfl, rfl⟩
  · rintro ⟨hdecoded, heffect, hbefore, hafter, hclocks⟩
    obtain ⟨d, e, before, after, clocks⟩ := step
    dsimp only at hdecoded heffect hbefore hafter hclocks
    subst hbefore hafter hclocks
    rw [hdecoded]
    dsimp only
    rw [heffect]

namespace IsStep

variable {s : Simulator} {stop stop' : Nat} {step : Step}

/-- A step whose bytes lie before one bound is the step for every later bound. -/
theorem mono (h : s.IsStep stop step) (hstop : min stop addressSpace ≤ stop') :
    s.IsStep stop' step :=
  { h with decoded := decode_mono h.decoded hstop }

theorem hasEffect (h : s.IsStep stop step) :
    HasEffect s.memory { s.cpu with ip := step.next } step.instruction step.effect :=
  hasEffect_of_effect h.effect

/-- Without a jump the instruction pointer goes to the end of the instruction. -/
theorem ip_after (h : s.IsStep stop step) (hjump : ¬ step.TakesJump) :
    step.after.ip = UInt16.ofNat (step.address.toNat + step.size) := by
  rw [Step.TakesJump, h.before] at hjump
  rw [h.after, Effect.ip_onCpu, h.hasEffect.jump_eq_none hjump]
  exact step.next_eq_ofNat

end IsStep

/-- Decoding and executing are all that a step consists of. -/
theorem exists_isStep {s : Simulator} {stop : Nat} {d : Decoded} {e : Effect}
    (hdecode : decode s.memory s.cpu.ip stop = .ok d)
    (heffect : Machine8086.effect s.memory { s.cpu with ip := d.next } d.instruction = .ok e) :
    ∃ step, s.IsStep stop step ∧ step.toDecoded = d ∧ step.effect = e :=
  ⟨{ d with effect := e, before := s.cpu, after := e.onCpu { s.cpu with ip := d.next } },
    ⟨hdecode, heffect, rfl, rfl, rfl⟩, rfl, rfl⟩

/-- What a step that decodes and executes leaves behind. -/
theorem exists_isStep_of_execute {s : Simulator} {stop : Nat} {d : Decoded} {m' : Memory}
    {c' : Cpu} (hdecode : decode s.memory s.cpu.ip stop = .ok d)
    (hexecute : execute s.memory { s.cpu with ip := d.next } d.instruction = .ok (m', c')) :
    ∃ step, s.IsStep stop step ∧ step.toDecoded = d ∧
      s.commit step = { s with memory := m', cpu := c' } := by
  obtain ⟨e, heffect, rfl, rfl⟩ := exists_effect_of_execute hexecute
  obtain ⟨step, hstep, rfl, rfl⟩ := exists_isStep hdecode heffect
  refine ⟨step, hstep, rfl, ?_⟩
  rw [commit, hstep.after]

@[simp] theorem commit_programStart (s : Simulator) (step : Step) :
    (s.commit step).programStart = s.programStart := rfl

@[simp] theorem commit_programEnd (s : Simulator) (step : Step) :
    (s.commit step).programEnd = s.programEnd := rfl

theorem step_eq_ok_iff (s next : Simulator) (step : Step) :
    s.step = .ok (step, next) ↔ s.preview addressSpace = .ok step ∧ next = s.commit step := by
  rw [Simulator.step, stepWithin]
  cases s.preview addressSpace with
  | error e => simp [Except.map]
  | ok step' =>
    simp only [Except.map, Except.ok.injEq, Prod.mk.injEq]
    constructor
    · rintro ⟨rfl, rfl⟩
      exact ⟨rfl, rfl⟩
    · rintro ⟨rfl, rfl⟩
      exact ⟨rfl, rfl⟩

/-- A step in memory is the step in the program, wherever its bytes were cut off. -/
theorem step_eq_of_preview {s : Simulator} {stop : Nat} {step : Step}
    (h : s.preview stop = .ok step) : s.step = .ok (step, s.commit step) := by
  have hstep := ((preview_eq_ok_iff ..).1 h).mono (Nat.min_le_right stop addressSpace)
  exact (step_eq_ok_iff ..).2 ⟨(preview_eq_ok_iff ..).2 hstep, rfl⟩

/-- Decoding at the instruction pointer and executing behind the instruction make up a step. -/
theorem step_of_execute {s : Simulator} {d : Decoded} {m' : Memory} {c' : Cpu}
    (hdecode : decode s.memory s.cpu.ip addressSpace = .ok d)
    (hexecute : execute s.memory { s.cpu with ip := d.next } d.instruction = .ok (m', c')) :
    ∃ step, s.step = .ok (step, { s with memory := m', cpu := c' }) ∧ step.toDecoded = d := by
  obtain ⟨step, hstep, hdecoded, hcommit⟩ := exists_isStep_of_execute hdecode hexecute
  refine ⟨step, ?_, hdecoded⟩
  rw [← hcommit]
  exact step_eq_of_preview ((preview_eq_ok_iff ..).2 hstep)

end Simulator

end Machine8086
