import Machine8086.Operation

/-!
# Opcode forms

The first byte of an instruction selects one of nine encoding forms. Each form fixes some bits of
the byte; a byte belongs to the first form of `Form.all` whose fixed bits it has.
-/

namespace Machine8086

/-- The bit of a byte with the given place. -/
def bitOf (byte : UInt8) (place : Nat) : Bool := byte.toNat.testBit place

/-- The three-bit field of a byte that starts at the given place. -/
def fieldOf (byte : UInt8) (place : Nat) : Fin 8 := Fin.ofNat 8 (byte.toNat >>> place)

/-- The encoding forms of instructions. -/
inductive Form where
  /-- MOV between a register and a register or memory operand: `100010dw` -/
  | movRegister
  /-- MOV of an immediate to a register: `1011wreg` -/
  | movImmediateToRegister
  /-- MOV of an immediate to a register or memory operand: `1100011w` -/
  | movImmediate
  /-- MOV between the accumulator and a direct address: `101000dw` -/
  | movAccumulator
  /-- Arithmetic between a register and a register or memory operand: `00ooo0dw` -/
  | arithmeticRegister
  /-- Arithmetic of an immediate with a register or memory operand: `100000sw` -/
  | arithmeticImmediate
  /-- Arithmetic of an immediate with the accumulator: `00ooo10w` -/
  | arithmeticAccumulator
  /-- Conditional jump: `0111cccc` -/
  | conditionalJump
  /-- Loop family: `111000cc` -/
  | loopJump
  deriving DecidableEq, Repr

namespace Form

/-- The forms in the order in which they are tried. -/
def all : List Form :=
  [movRegister, movImmediateToRegister, movImmediate, movAccumulator, arithmeticRegister,
    arithmeticImmediate, arithmeticAccumulator, conditionalJump, loopJump]

/-- The bits that the form fixes. -/
def mask : Form → UInt8
  | movRegister => 0b11111100
  | movImmediateToRegister => 0b11110000
  | movImmediate => 0b11111110
  | movAccumulator => 0b11111100
  | arithmeticRegister => 0b11000100
  | arithmeticImmediate => 0b11111100
  | arithmeticAccumulator => 0b11000110
  | conditionalJump => 0b11110000
  | loopJump => 0b11111100

/-- The values of the fixed bits. -/
def pattern : Form → UInt8
  | movRegister => 0b10001000
  | movImmediateToRegister => 0b10110000
  | movImmediate => 0b11000110
  | movAccumulator => 0b10100000
  | arithmeticRegister => 0b00000000
  | arithmeticImmediate => 0b10000000
  | arithmeticAccumulator => 0b00000100
  | conditionalJump => 0b01110000
  | loopJump => 0b11100000

/-- A byte has the fixed bits of the form. -/
def accepts (form : Form) (byte : UInt8) : Bool := byte &&& form.mask == form.pattern

/-- The form that a first byte selects. -/
def ofByte? (byte : UInt8) : Option Form := all.find? (·.accepts byte)

end Form

namespace Operation

/-- The operation of a three-bit arithmetic field; the other five are not decoded. -/
def ofArithmeticField? : Fin 8 → Option Operation
  | 0 => some add
  | 5 => some sub
  | 7 => some cmp
  | _ => none

/-- The conditional jumps in the order of their four-bit field. -/
def conditionalJumps : List Operation :=
  [jo, jno, jb, jnb, je, jne, jbe, jnbe, js, jns, jp, jnp, jl, jnl, jle, jnle]

/-- The loop family in the order of its two-bit field. -/
def loopJumps : List Operation := [loopnz, loopz, loop, jcxz]

/-- The conditional jump of an opcode. -/
def ofConditionField (opcode : UInt8) : Operation :=
  conditionalJumps.get (Fin.ofNat 16 opcode.toNat)

/-- The loop instruction of an opcode. -/
def ofLoopField (opcode : UInt8) : Operation :=
  loopJumps.get (Fin.ofNat 4 opcode.toNat)

end Operation

end Machine8086
