import Machine8086.Checked.Action
import Machine8086.Instruction.Clocks
import Machine8086.Instruction.Text

/-!
# Texts and estimates from tables

The names of registers and base expressions stand in tables, and a jump target is a sum of 16 bits;
an estimate has 32 bits.
-/

namespace Machine8086.Checked

/-- The names of the registers, by their ordinals. -/
def registerNames : List String :=
  ["al", "cl", "dl", "bl", "ah", "ch", "dh", "bh", "ax", "cx", "dx", "bx", "sp", "bp", "si", "di"]

/-- The base expressions, by their codes. -/
def baseNames : List String :=
  ["bx + si", "bx + di", "bp + si", "bp + di", "si", "di", "bp", "bx"]

/-- The name of a register. -/
def registerName (r : Register) : Except Fault String := entry registerNames r.ordinal

/-- The base expression of a memory operand; a direct address, which has none, is excluded. -/
def baseExpression : MemoryOperand → Except Fault String
  | .direct _ => .error .excluded
  | .based base _ => entry baseNames base.code.val

/-- A memory operand in square brackets. -/
def memoryText (o : MemoryOperand) : Except Fault String :=
  match o with
  | .direct address => return "[" ++ Numeral.decimal address.toNat ++ "]"
  | .based _ displacement =>
    return "[" ++ (← baseExpression o) ++ displacementText displacement ++ "]"

/-- Text of a destination. -/
def destinationText : Operand → Except Fault String
  | .register r => registerName r
  | .memory o => memoryText o

/-- Text of a source, without a size keyword. -/
def sourceText : Source → Except Fault String
  | .register r => registerName r
  | .memory o => memoryText o
  | .immediate imm => return imm.text

/-- A jump target relative to the start of the two-byte jump. -/
def targetText (offset : Int8) : Except Fault String := do
  let target ← signedSum 16 offset.toInt 2
  if 0 ≤ target then return "$+" ++ Numeral.decimal target.natAbs
  else return "$-" ++ Numeral.decimal target.natAbs

/-- Text of the operands. -/
def operandsText : Operands → Except Fault String
  | .pair (.memory o) (.immediate imm) =>
    return (← memoryText o) ++ ", " ++ imm.width.keyword ++ " " ++ imm.text
  | .pair destination source =>
    return (← destinationText destination) ++ ", " ++ (← sourceText source)
  | .relative offset => targetText offset

/-- The assembly line of an instruction, without a line end. -/
def text (i : Instruction) : Except Fault String :=
  return i.operation.mnemonic ++ " " ++ (← operandsText i.operands)

/-- Estimated clocks of an instruction; `none` if there is no estimate for it. -/
def estimate (i : Instruction) : Except Fault (Option Nat) :=
  match i.clocks? with
  | none => return none
  | some clocks => return some (← fit 32 clocks)

end Machine8086.Checked
