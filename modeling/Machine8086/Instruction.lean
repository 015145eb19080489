import Machine8086.Operand
import Machine8086.Operation

/-!
# Instructions

An instruction is an operation with either a destination and a source or a jump offset. The type
admits combinations that no encoding produces; `Instruction.width?` says which pairs have a width.
-/

namespace Machine8086

/-- The operands of an instruction. -/
inductive Operands where
  | pair (destination : Operand) (source : Source)
  | relative (offset : Int8)
  deriving DecidableEq, Repr, Inhabited

/-- An operation with its operands. -/
structure Instruction where
  operation : Operation
  operands : Operands
  deriving DecidableEq, Repr, Inhabited

namespace Operands

/-- The width of a pair: a register destination decides, then a register source, then an
immediate. A pair of memory operands and a jump offset have none. -/
def width? : Operands → Option Width
  | .pair (.register r) _ => some r.width
  | .pair (.memory _) (.register r) => some r.width
  | .pair (.memory _) (.immediate imm) => some imm.width
  | .pair (.memory _) (.memory _) => none
  | .relative _ => none

end Operands

namespace Instruction

/-- An instruction with two operands. -/
def pair (operation : Operation) (destination : Operand) (source : Source) : Instruction :=
  ⟨operation, .pair destination source⟩

/-- A jump by `offset` bytes from the end of the instruction. -/
def jump (operation : Operation) (offset : Int8) : Instruction :=
  ⟨operation, .relative offset⟩

/-- The destination of a pair. -/
def destination? (i : Instruction) : Option Operand :=
  match i.operands with
  | .pair destination _ => some destination
  | .relative _ => none

/-- The source of a pair. -/
def source? (i : Instruction) : Option Source :=
  match i.operands with
  | .pair _ source => some source
  | .relative _ => none

/-- The jump offset, counted from the end of the instruction. -/
def jumpOffset? (i : Instruction) : Option Int8 :=
  match i.operands with
  | .pair _ _ => none
  | .relative offset => some offset

/-- The width at which an instruction works. -/
def width? (i : Instruction) : Option Width := i.operands.width?

end Instruction

end Machine8086
