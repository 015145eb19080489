import Machine8086.Register

/-!
# Operands

A memory operand is either a direct address or a sum of base registers and a signed displacement.
A destination is a register or a memory operand; a source may also be an immediate value that
remembers the width it was encoded with.
-/

namespace Machine8086

/-- The base-register sums that a memory operand can use. -/
inductive AddressBase where
  | bxSi | bxDi | bpSi | bpDi | si | di | bp | bx
  deriving DecidableEq, Repr, Inhabited

namespace AddressBase

/-- The base with the given three-bit code. -/
def ofCode : Fin 8 → AddressBase
  | 0 => bxSi | 1 => bxDi | 2 => bpSi | 3 => bpDi
  | 4 => si | 5 => di | 6 => bp | 7 => bx

/-- The three-bit code of a base. -/
def code : AddressBase → Fin 8
  | bxSi => 0 | bxDi => 1 | bpSi => 2 | bpDi => 3
  | si => 4 | di => 5 | bp => 6 | bx => 7

/-- The registers that are added up. -/
def registers : AddressBase → List Register
  | bxSi => [.bx, .si]
  | bxDi => [.bx, .di]
  | bpSi => [.bp, .si]
  | bpDi => [.bp, .di]
  | si => [.si]
  | di => [.di]
  | bp => [.bp]
  | bx => [.bx]

/-- The sum as assembly text. -/
def text (base : AddressBase) : String :=
  " + ".intercalate (base.registers.map Register.name)

@[simp] theorem code_ofCode (code : Fin 8) : (ofCode code).code = code := by
  revert code
  decide

@[simp] theorem ofCode_code (base : AddressBase) : ofCode base.code = base := by
  cases base <;> rfl

end AddressBase

/-- An operand in memory. -/
inductive MemoryOperand where
  | direct (address : UInt16)
  | based (base : AddressBase) (displacement : Int16)
  deriving DecidableEq, Repr, Inhabited

/-- An immediate value with the width it was encoded with. -/
structure Immediate where
  value : UInt16
  width : Width
  deriving DecidableEq, Repr, Inhabited

namespace Immediate

/-- A byte immediate. -/
def ofByte (value : UInt8) : Immediate := ⟨value.toUInt16, .byte⟩

/-- A word immediate. -/
def ofWord (value : UInt16) : Immediate := ⟨value, .word⟩

/-- The value cut to the immediate's own width. -/
def read (imm : Immediate) : UInt16 := imm.width.truncate imm.value

end Immediate

/-- A destination operand. -/
inductive Operand where
  | register (r : Register)
  | memory (m : MemoryOperand)
  deriving DecidableEq, Repr, Inhabited

/-- A source operand. -/
inductive Source where
  | register (r : Register)
  | memory (m : MemoryOperand)
  | immediate (imm : Immediate)
  deriving DecidableEq, Repr, Inhabited

/-- A destination read as a source. -/
def Operand.toSource : Operand → Source
  | .register r => .register r
  | .memory m => .memory m

end Machine8086
