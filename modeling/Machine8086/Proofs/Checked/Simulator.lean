import Machine8086.Checked.Simulator
import Machine8086.Proofs.Checked.Decode
import Machine8086.Proofs.Checked.Execution

/-!
# Loads and steps in place

The operations in place do what the operations of the simulator do, and have no faults. Loading
(`exec_load`) and decoding (`exec_decodeOne`) take one lemma each. A step moves the instruction
pointer, executes the instruction and takes the processor back if that fails; together this is the
step that is worked out first and then carried out (`exec_stepWithin`).
-/

namespace Machine8086.Checked

theorem exec_load (program : List UInt8) (start : UInt16) (s : Simulator) :
    (load program start).exec s =
      match s.load program start with
      | .ok t => .ok (.ok program.length, t)
      | .error e => .ok (.error e, s) := by
  rw [load, Action.exec_bind_of_ok (Action.exec_get s), Simulator.load, Memory.load]
  by_cases hspace : start.toNat + program.length ≤ addressSpace
  · have hfill : fill s.memory start program = .ok (s.memory.writeBytes start program) := by
      rw [fill, s.memory.size_bytes, decide_eq_true hspace]
      rfl
    have hsum : sum 32 start.toNat program.length = .ok (start.toNat + program.length) := by
      apply sum_eq_ok
      exact Nat.lt_of_le_of_lt hspace (by decide)
    rw [if_pos hspace, if_neg (Nat.not_lt.2 hspace), hfill, hsum]
    rfl
  · rw [if_neg hspace, if_pos (Nat.lt_of_not_le hspace)]
    rfl

theorem Decoded.next_sub (d : Decoded) : d.next - d.address = UInt16.ofNat d.size := by
  rw [Decoded.next, UInt16.add_comm, UInt16.add_sub_cancel]

/-- Decoding one instruction gives its size and its text. -/
theorem exec_decodeOne (address : UInt16) (s : Simulator) :
    (decodeOne address).exec s = .ok
      ((s.decodeAt address).map fun d => (UInt16.ofNat d.size, d.instruction.text), s) := by
  rw [decodeOne, Action.exec_bind_of_ok (Action.exec_get s), decode_eq, Simulator.decodeAt]
  cases hdecode : Machine8086.decode s.memory address addressSpace with
  | error e => rfl
  | ok d =>
    have haddress := (decode_eq_ok hdecode).1
    simp only [Action.lift_ok_bind, Action.ofExcept, pure_bind, text_eq, ← haddress,
      Decoded.next_sub]
    rfl

/-- A step in place: the step of the model, or its error with nothing changed. -/
theorem exec_stepWithin (stop : Nat) (s : Simulator) :
    (stepWithin stop).exec s = .ok
      (match s.preview stop with
        | .ok step => (.ok (.ofStep step), s.commit step)
        | .error e => (.error e, s)) := by
  rw [stepWithin, Action.exec_bind_of_ok (Action.exec_get s), Simulator.preview]
  dsimp only
  rw [decode_eq]
  cases hdecode : Machine8086.decode s.memory s.cpu.ip stop with
  | error e => rfl
  | ok d =>
    obtain ⟨haddress, hpos⟩ := decode_eq_ok hdecode
    have hdecodable : d.instruction.Decodable := ⟨s.memory, _, stop, d, hdecode, rfl⟩
    have hwell := (Instruction.decodable_iff_wellFormed _).1 hdecodable
    have hsize : (d.next - s.cpu.ip).toNat = d.size := by
      have hbounds := decode_size_bounds hdecode
      rw [← haddress, Decoded.next_sub, UInt16.toNat_ofNat']
      omega
    -- the instruction is executed with the instruction pointer behind it
    let advanced : Simulator := { s with cpu := { s.cpu with ip := d.next } }
    have hadvance : (setCpu { s.cpu with ip := d.next } : Action Simulator StepError Unit).exec s =
        .ok (.ok (), advanced) := rfl
    have hexecute := exec_execute d.instruction advanced
    dsimp only
    rw [Action.lift_ok_bind, Action.exec_bind_of_ok hadvance]
    cases heffect : effect s.memory { s.cpu with ip := d.next } d.instruction with
    | error e =>
      -- an instruction that was decoded has a width, so there is no fault, and `advanced` is kept
      obtain ⟨-, rfl⟩ := effect_error_of_wellFormed hwell heffect
      rw [show effect advanced.memory advanced.cpu d.instruction = _ from heffect] at hexecute
      rw [Action.exec_bind_of_ok (Action.exec_attempt hexecute), hsize, ← haddress]
      rfl
    | ok e =>
      rw [show effect advanced.memory advanced.cpu d.instruction = _ from heffect] at hexecute
      rw [Action.exec_bind_of_ok (Action.exec_attempt hexecute), ← haddress]
      rfl

end Machine8086.Checked
