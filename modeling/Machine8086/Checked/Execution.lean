import Machine8086.Checked.Action
import Machine8086.Simulator

/-!
# Execution in place

An instruction is executed on the simulator itself, one change after the other. Registers are
reached by their numbers, and a pair of operands is taken to have a width.
-/

namespace Machine8086.Checked

/-- The word register with a number. -/
def wordRegister (c : Cpu) : Nat → Except Fault UInt16
  | 0 => .ok c.ax | 1 => .ok c.cx | 2 => .ok c.dx | 3 => .ok c.bx
  | 4 => .ok c.sp | 5 => .ok c.bp | 6 => .ok c.si | 7 => .ok c.di
  | _ => .error .excluded

/-- Replaces the word register with a number. -/
def setWordRegister (c : Cpu) (value : UInt16) : Nat → Except Fault Cpu
  | 0 => .ok { c with ax := value } | 1 => .ok { c with cx := value }
  | 2 => .ok { c with dx := value } | 3 => .ok { c with bx := value }
  | 4 => .ok { c with sp := value } | 5 => .ok { c with bp := value }
  | 6 => .ok { c with si := value } | 7 => .ok { c with di := value }
  | _ => .error .excluded

/-- The low half of a word register; only the first four have halves. -/
def lowRegister (c : Cpu) (number : Nat) : Except Fault UInt16 := do
  assert (number < 4)
  return lowHalf (← wordRegister c number)

/-- The high half of a word register. -/
def highRegister (c : Cpu) (number : Nat) : Except Fault UInt16 := do
  assert (number < 4)
  return highHalf (← wordRegister c number)

/-- Replaces the low half of a word register. -/
def setLowRegister (c : Cpu) (number : Nat) (value : UInt16) : Except Fault Cpu := do
  assert (number < 4)
  setWordRegister c (withLowHalf (← wordRegister c number) value) number

/-- Replaces the high half of a word register. -/
def setHighRegister (c : Cpu) (number : Nat) (value : UInt16) : Except Fault Cpu := do
  assert (number < 4)
  setWordRegister c (withHighHalf (← wordRegister c number) value) number

/-- The value of a register; byte registers are numbered low halves first. -/
def readRegister (c : Cpu) (r : Register) : Except Fault UInt16 :=
  match r.width with
  | .word => wordRegister c r.code
  | .byte =>
    if r.code.val < 4 then lowRegister c r.code
    else do highRegister c (← difference r.code 4)

/-- Replaces the value of a register. -/
def writeRegister (c : Cpu) (r : Register) (value : UInt16) : Except Fault Cpu :=
  match r.width with
  | .word => setWordRegister c value r.code
  | .byte =>
    if r.code.val < 4 then setLowRegister c r.code value
    else do setHighRegister c (← difference r.code 4) value

/-- The address of a memory operand: the displacement, and the registers added one by one. -/
def effectiveAddress (c : Cpu) : MemoryOperand → Except Fault UInt16
  | .direct address => .ok address
  | .based base displacement =>
    base.registers.foldlM (fun address r => return address + (← readRegister c r))
      displacement.toUInt16

/-- The value of a source operand, cut to the given width. -/
def readSource (m : Memory) (c : Cpu) (width : Width) : Source → Except Fault UInt16
  | .register r => return width.truncate (← readRegister c r)
  | .memory o => return width.truncate (m.readWide width (← effectiveAddress c o))
  | .immediate imm => return width.truncate imm.read

variable {ε : Type}

/-- Replaces the processor. -/
def setCpu (c : Cpu) : Action Simulator ε Unit := modify fun s => { s with cpu := c }

/-- Replaces the memory. -/
def setMemory (m : Memory) : Action Simulator ε Unit := modify fun s => { s with memory := m }

/-- Stores a value in a destination operand. -/
def writeDestination (width : Width) (value : UInt16) : Operand → Action Simulator ε Unit
  | .register r => do
    let s ← get
    setCpu (← writeRegister s.cpu r value)
  | .memory o => do
    let s ← get
    let address ← effectiveAddress s.cpu o
    match width with
    | .byte => setMemory (s.memory.write address value.toUInt8)
    | .word => setMemory (s.memory.writeWord address value)

/-- Sets the flags for a result. -/
def updateFlags (width : Width) (result : UInt16) : Action Simulator ε Unit := do
  let s ← get
  setCpu { s.cpu with flags := .ofResult width result }

/-- Executes an instruction; the instruction pointer stands past it. -/
def execute (i : Instruction) : Action Simulator ExecuteError Unit := do
  let s ← get
  match i.operation, i.operands with
  | .mov, .pair destination source =>
    let width ← present i.width?
    let value ← readSource s.memory s.cpu width source
    writeDestination width value destination
  | .add, .pair destination source =>
    let width ← present i.width?
    let left ← readSource s.memory s.cpu width destination.toSource
    let right ← readSource s.memory s.cpu width source
    let result := width.truncate (left + right)
    updateFlags width result
    writeDestination width result destination
  | .sub, .pair destination source =>
    let width ← present i.width?
    let left ← readSource s.memory s.cpu width destination.toSource
    let right ← readSource s.memory s.cpu width source
    let result := width.truncate (left - right)
    updateFlags width result
    writeDestination width result destination
  | .cmp, .pair destination source =>
    let width ← present i.width?
    let left ← readSource s.memory s.cpu width destination.toSource
    let right ← readSource s.memory s.cpu width source
    updateFlags width (width.truncate (left - right))
  | .jne, .relative offset =>
    if !s.cpu.flags.zero then
      setCpu { s.cpu with ip := s.cpu.ip + offset.toInt16.toUInt16 }
  | operation, _ => throw (.unimplemented operation)

end Machine8086.Checked
