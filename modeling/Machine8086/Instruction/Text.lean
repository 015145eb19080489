import Machine8086.Instruction
import Machine8086.Numeral

/-!
# Assembly text

One line of assembly per instruction. A displacement of zero is not written and a negative one is
written with a minus sign; an immediate stored to memory is qualified by its size; a jump names its
target relative to `$`, the address at which the two-byte jump itself starts.
-/

namespace Machine8086

/-- A displacement after a base expression; nothing for zero. -/
def displacementText (displacement : Int16) : String :=
  if displacement.toInt = 0 then ""
  else if 0 < displacement.toInt then " + " ++ Numeral.decimal displacement.toInt.natAbs
  else " - " ++ Numeral.decimal displacement.toInt.natAbs

/-- A memory operand in square brackets. -/
def MemoryOperand.text : MemoryOperand → String
  | .direct address => "[" ++ Numeral.decimal address.toNat ++ "]"
  | .based base displacement => "[" ++ base.text ++ displacementText displacement ++ "]"

/-- An immediate as an unsigned decimal number. -/
def Immediate.text (imm : Immediate) : String := Numeral.decimal imm.read.toNat

/-- Text of a destination. -/
def Operand.text : Operand → String
  | .register r => r.name
  | .memory m => m.text

/-- Text of a source, without a size keyword. -/
def Source.text : Source → String
  | .register r => r.name
  | .memory m => m.text
  | .immediate imm => imm.text

/-- A jump target relative to the start of the two-byte jump. -/
def jumpTargetText (offset : Int8) : String :=
  let target := offset.toInt + 2
  if 0 ≤ target then "$+" ++ Numeral.decimal target.natAbs
  else "$-" ++ Numeral.decimal target.natAbs

/-- Text of the operands. -/
def Operands.text : Operands → String
  -- no register tells the width here
  | .pair (.memory m) (.immediate imm) => m.text ++ ", " ++ imm.width.keyword ++ " " ++ imm.text
  | .pair destination source => destination.text ++ ", " ++ source.text
  | .relative offset => jumpTargetText offset

/-- The assembly line of an instruction, without a line end. -/
def Instruction.text (i : Instruction) : String :=
  i.operation.mnemonic ++ " " ++ i.operands.text

end Machine8086
