import Machine8086.Instruction

/-!
# Clock estimates

Clock counts of MOV and ADD. A memory operand adds the time of its address calculation, which
depends on the base registers and on whether there is a displacement. No other operation has an
estimate.
-/

namespace Machine8086

/-- Clocks of an address calculation from base registers alone. -/
def AddressBase.clocks : AddressBase → Nat
  | .si | .di | .bp | .bx => 5
  | .bpDi | .bxSi => 7
  | .bpSi | .bxDi => 8

/-- Clocks of the address calculation of a memory operand. -/
def MemoryOperand.clocks : MemoryOperand → Nat
  | .direct _ => 6
  | .based base displacement => base.clocks + if displacement = 0 then 0 else 4

/-- Clocks of a MOV. Between AX and memory they are ten, whatever the address. -/
def movClocks? : Operand → Source → Option Nat
  | .register .ax, .memory _ => some 10
  | .memory _, .register .ax => some 10
  | .register _, .register _ => some 2
  | .register _, .memory m => some (8 + m.clocks)
  | .memory m, .register _ => some (9 + m.clocks)
  | .register _, .immediate _ => some 4
  | .memory m, .immediate _ => some (10 + m.clocks)
  | .memory _, .memory _ => none

/-- Clocks of an ADD. -/
def addClocks? : Operand → Source → Option Nat
  | .register _, .register _ => some 3
  | .register _, .memory m => some (9 + m.clocks)
  | .memory m, .register _ => some (16 + m.clocks)
  | .register _, .immediate _ => some 4
  | .memory m, .immediate _ => some (17 + m.clocks)
  | .memory _, .memory _ => none

/-- Estimated clocks of an instruction; `none` if there is no estimate for it. -/
def Instruction.clocks? (i : Instruction) : Option Nat :=
  match i.operation, i.operands with
  | .mov, .pair destination source => movClocks? destination source
  | .add, .pair destination source => addClocks? destination source
  | _, _ => none

end Machine8086
