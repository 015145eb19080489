import Machine8086.Checked.Execution
import Machine8086.Proofs.Checked.Action
import Machine8086.Proofs.Simulator

/-!
# Execution in place

Every register has a number, and an instruction that has an effect has it in place
(`exec_execute`). What cannot be executed changes nothing; the one fault is a pair of operands in
memory.
-/

namespace Machine8086.Checked

/-! ## Operands -/

theorem readRegister_eq (c : Cpu) (r : Register) : readRegister c r = .ok (c.read r) := by
  cases r <;> rfl

theorem writeRegister_eq (c : Cpu) (r : Register) (value : UInt16) :
    writeRegister c r value = .ok (c.write r value) := by
  cases r <;> rfl

theorem effectiveAddress_eq_ok (c : Cpu) (o : MemoryOperand) :
    effectiveAddress c o = .ok (c.effectiveAddress o) := by
  cases o with
  | direct address => rfl
  | based base displacement =>
    -- the displacement is added first here, and last in the model
    have hfold : ∀ (rs : List Register) (address d : UInt16),
        rs.foldlM (fun address r => return address + (← readRegister c r)) (address + d) =
          (.ok ((rs.map c.read).foldl (· + ·) address + d) : Except Fault UInt16) := by
      intro rs
      induction rs with
      | nil => exact fun address d => rfl
      | cons r rs ih =>
        intro address d
        have hnext : address + d + c.read r = address + c.read r + d := by
          rw [UInt16.add_assoc, UInt16.add_assoc, UInt16.add_comm d]
        rw [List.foldlM_cons, readRegister_eq, List.map_cons, List.foldl_cons, ← ih, ← hnext]
        rfl
    have hbase := hfold base.registers 0 displacement.toUInt16
    rw [UInt16.zero_add] at hbase
    exact hbase

theorem readSource_eq (m : Memory) (c : Cpu) (w : Width) (source : Source) :
    readSource m c w source = .ok (sourceValue m c w source) := by
  cases source with
  | register r =>
    rw [readSource, readRegister_eq]
    rfl
  | memory o =>
    rw [readSource, effectiveAddress_eq_ok]
    rfl
  | immediate imm => rfl

/-! ## Instructions -/

/-- The simulator after an effect. -/
def apply (e : Effect) (s : Simulator) : Simulator :=
  { s with memory := e.onMemory s.memory, cpu := e.onCpu s.cpu }

variable {ε : Type}

theorem exec_writeDestination (w : Width) (value : UInt16) (destination : Operand) (s : Simulator) :
    (writeDestination w value destination : Action Simulator ε Unit).exec s =
      .ok (.ok (), apply { store := some (storeTo s.cpu w value destination) } s) := by
  rw [writeDestination.eq_def]
  cases destination with
  | register r =>
    dsimp only
    rw [Action.exec_bind_of_ok (Action.exec_get s), writeRegister_eq]
    rfl
  | memory o =>
    dsimp only
    rw [Action.exec_bind_of_ok (Action.exec_get s), effectiveAddress_eq_ok]
    cases w <;> rfl

/-- Flags take no part in the address of a destination. -/
theorem storeTo_set_flags (c : Cpu) (flags : Flags) (w : Width) (value : UInt16)
    (destination : Operand) :
    storeTo { c with flags := flags } w value destination = storeTo c w value destination := by
  have hread : ∀ r, ({ c with flags := flags } : Cpu).read r = c.read r := by
    intro r
    cases r <;> rfl
  cases destination with
  | register r => rfl
  | memory o =>
    cases o with
    | direct address => rfl
    | based base displacement =>
      simp only [storeTo, Cpu.effectiveAddress, Cpu.baseSum, funext hread]

/-- The flags are set, and then the result is stored. -/
theorem exec_updateFlags_writeDestination (w : Width) (result : UInt16) (destination : Operand)
    (s : Simulator) :
    (do updateFlags w result; writeDestination w result destination : Action Simulator ε Unit).exec
        s = .ok (.ok (), apply (arithmeticEffect s.cpu destination w result) s) := by
  have hflags : (updateFlags w result : Action Simulator ε Unit).exec s =
      .ok (.ok (), { s with cpu := { s.cpu with flags := .ofResult w result } }) := rfl
  rw [Action.exec_bind_of_ok hflags, exec_writeDestination, storeTo_set_flags]
  cases destination <;> rfl

/-- Executing an instruction has its effect, or fails without any; two operands in memory are the
one fault. -/
theorem exec_execute (i : Instruction) (s : Simulator) :
    (execute i).exec s =
      match effect s.memory s.cpu i with
      | .ok e => .ok (.ok (), apply e s)
      | .error (.unimplemented operation) => .ok (.error (.unimplemented operation), s)
      | .error .memoryToMemory => .error .excluded := by
  obtain ⟨operation, operands⟩ := i
  rw [execute, Action.exec_bind_of_ok (Action.exec_get s)]
  cases operands with
  | relative offset =>
    cases operation with
    | jne =>
      simp only [effect]
      cases s.cpu.flags.zero <;> rfl
    | _ => rfl
  | pair destination source =>
    cases hwidth : (Operands.pair destination source).width? with
    | none =>
      have hexecuted :
          (Operands.pair destination source).executedWidth = .error .memoryToMemory := by
        rw [Operands.executedWidth, hwidth]
      cases operation <;> simp only [effect, hexecuted, Instruction.width?, hwidth] <;> rfl
    | some w =>
      have hexecuted := (executedWidth_eq_ok_iff _ w).2 hwidth
      have hpresent : present (some w) = .ok w := rfl
      cases operation with
      | mov =>
        simp only [effect, hexecuted, Instruction.width?, hwidth, hpresent, readSource_eq,
          Action.lift_ok_bind]
        exact exec_writeDestination ..
      | add =>
        simp only [effect, hexecuted, Instruction.width?, hwidth, hpresent, readSource_eq,
          Action.lift_ok_bind]
        exact exec_updateFlags_writeDestination ..
      | sub =>
        simp only [effect, hexecuted, Instruction.width?, hwidth, hpresent, readSource_eq,
          Action.lift_ok_bind]
        exact exec_updateFlags_writeDestination ..
      | cmp =>
        simp only [effect, hexecuted, Instruction.width?, hwidth, hpresent, readSource_eq,
          Action.lift_ok_bind]
        rfl
      | _ => rfl

end Machine8086.Checked
