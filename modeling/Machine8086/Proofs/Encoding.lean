import Machine8086.Instruction
import Machine8086.Proofs.Word

/-!
# The encoding table

Which bytes stand for which instruction, as a relation with one rule for each row of the table
(`Encodes`). A byte is written as its bit fields from the highest bit down (`packFields`), so that
the row `1011wreg` reads `[(4, 0b1011), (1, w), (3, reg)]`. The table is written from the side of
the instruction: operands and operations name their codes, and nothing in it tests or masks a
byte. No encoding is longer than six bytes (`Encodes.length_le`).
-/

namespace Machine8086

/-- The byte made of the given bit fields, each a size and a value, the highest first. -/
def packFields (fields : List (Nat × Nat)) : UInt8 :=
  UInt8.ofNat (fields.foldl (fun value field => value * 2 ^ field.1 + field.2) 0)

/-- The `w` bit of a width. -/
def Width.bit : Width → Nat
  | byte => 0
  | word => 1

namespace Operation

/-- The field `ooo` of an arithmetic operation. -/
def arithmeticCode? : Operation → Option (Fin 8)
  | add => some 0b000
  | sub => some 0b101
  | cmp => some 0b111
  | _ => none

/-- The field `cccc` of a conditional jump. -/
def conditionCode? : Operation → Option (Fin 16)
  | jo => some 0b0000
  | jno => some 0b0001
  | jb => some 0b0010
  | jnb => some 0b0011
  | je => some 0b0100
  | jne => some 0b0101
  | jbe => some 0b0110
  | jnbe => some 0b0111
  | js => some 0b1000
  | jns => some 0b1001
  | jp => some 0b1010
  | jnp => some 0b1011
  | jl => some 0b1100
  | jnl => some 0b1101
  | jle => some 0b1110
  | jnle => some 0b1111
  | _ => none

/-- The field `cc` of the loop family. -/
def loopCode? : Operation → Option (Fin 4)
  | loopnz => some 0b00
  | loopz => some 0b01
  | loop => some 0b10
  | jcxz => some 0b11
  | _ => none

end Operation

/-- `EncodesOperand w mode rm bytes operand`: at width `w`, the fields `mode` and `rm` followed by
the displacement `bytes` stand for `operand`. -/
inductive EncodesOperand : Width → Fin 4 → Fin 8 → List UInt8 → Operand → Prop
  | register (r : Register) : EncodesOperand r.width 0b11 r.code [] (.register r)
  | wordDisplacement (w : Width) (base : AddressBase) (displacement : Int16) :
      EncodesOperand w 0b10 base.code (wordBytes displacement.toUInt16)
        (.memory (.based base displacement))
  | byteDisplacement (w : Width) (base : AddressBase) (displacement : Int8) :
      EncodesOperand w 0b01 base.code [displacement.toUInt8]
        (.memory (.based base displacement.toInt16))
  | noDisplacement (w : Width) (base : AddressBase) (h : base ≠ .bp) :
      EncodesOperand w 0b00 base.code [] (.memory (.based base 0))
  | direct (w : Width) (address : UInt16) :
      EncodesOperand w 0b00 0b110 (wordBytes address) (.memory (.direct address))

/-- An immediate of a width is written with as many bytes. -/
inductive EncodesImmediate : Width → List UInt8 → Immediate → Prop
  | byte (value : UInt8) : EncodesImmediate .byte [value] (.ofByte value)
  | word (value : UInt16) : EncodesImmediate .word (wordBytes value) (.ofWord value)

/-- The immediate after an `s` bit: with `s` set, a word is written as one byte that is
sign-extended. -/
inductive EncodesShort : Bool → Width → List UInt8 → Immediate → Prop
  | byte (s : Bool) (value : UInt8) : EncodesShort s .byte [value] (.ofByte value)
  | word (value : UInt16) : EncodesShort false .word (wordBytes value) (.ofWord value)
  | extended (value : Int8) :
      EncodesShort true .word [value.toUInt8] (.ofWord value.toInt16.toUInt16)

/-- The leading fields of the rows with an addressing byte and a register: `100010` for MOV and
`00ooo0` for arithmetic. -/
inductive LeadsPair : List (Nat × Nat) → Operation → Prop
  | mov : LeadsPair [(6, 0b100010)] .mov
  | arithmetic {operation : Operation} {ooo : Fin 8} (h : operation.arithmeticCode? = some ooo) :
      LeadsPair [(2, 0b00), (3, ooo), (1, 0b0)] operation

/-- The encoding table. -/
inductive Encodes : List UInt8 → Instruction → Prop
  /-- MOV and arithmetic between a register and a register or memory; `d` makes the register the
  destination -/
  | registerPair {lead : List (Nat × Nat)} {operation : Operation}
      (hlead : LeadsPair lead operation) (d : Bool) (r : Register) {mode : Fin 4} {rm : Fin 8}
      {bytes : List UInt8} {operand : Operand}
      (h : EncodesOperand r.width mode rm bytes operand) :
      Encodes (packFields (lead ++ [(1, d.toNat), (1, r.width.bit)]) ::
          packFields [(2, mode), (3, r.code), (3, rm)] :: bytes)
        (if d then .pair operation (.register r) operand.toSource
          else .pair operation operand (.register r))
  /-- MOV of an immediate to a register -/
  | movImmediateToRegister (r : Register) {bytes : List UInt8} {imm : Immediate}
      (h : EncodesImmediate r.width bytes imm) :
      Encodes (packFields [(4, 0b1011), (1, r.width.bit), (3, r.code)] :: bytes)
        (.pair .mov (.register r) (.immediate imm))
  /-- MOV of an immediate to a register or memory; the register field is free -/
  | movImmediate {w : Width} {mode : Fin 4} (free : Fin 8) {rm : Fin 8}
      {bytes valueBytes : List UInt8} {operand : Operand} {imm : Immediate}
      (h : EncodesOperand w mode rm bytes operand) (hi : EncodesImmediate w valueBytes imm) :
      Encodes (packFields [(7, 0b1100011), (1, w.bit)] ::
          packFields [(2, mode), (3, free), (3, rm)] :: (bytes ++ valueBytes))
        (.pair .mov operand (.immediate imm))
  /-- MOV between the accumulator and a direct address; `d` makes the address the destination -/
  | movAccumulator (d : Bool) {r : Register} (hr : r = .al ∨ r = .ax) (address : UInt16) :
      Encodes (packFields [(6, 0b101000), (1, d.toNat), (1, r.width.bit)] :: wordBytes address)
        (if d then .pair .mov (.memory (.direct address)) (.register r)
          else .pair .mov (.register r) (.memory (.direct address)))
  /-- Arithmetic of an immediate with a register or memory, the operation in the register field -/
  | arithmeticImmediate {operation : Operation} {ooo : Fin 8}
      (ho : operation.arithmeticCode? = some ooo) {s : Bool} {w : Width} {mode : Fin 4}
      {rm : Fin 8} {bytes valueBytes : List UInt8} {operand : Operand} {imm : Immediate}
      (h : EncodesOperand w mode rm bytes operand) (hi : EncodesShort s w valueBytes imm) :
      Encodes (packFields [(6, 0b100000), (1, s.toNat), (1, w.bit)] ::
          packFields [(2, mode), (3, ooo), (3, rm)] :: (bytes ++ valueBytes))
        (.pair operation operand (.immediate imm))
  /-- Arithmetic of an immediate with the accumulator -/
  | arithmeticAccumulator {operation : Operation} {ooo : Fin 8}
      (ho : operation.arithmeticCode? = some ooo) {r : Register} (hr : r = .al ∨ r = .ax)
      {bytes : List UInt8} {imm : Immediate} (h : EncodesImmediate r.width bytes imm) :
      Encodes (packFields [(2, 0b00), (3, ooo), (2, 0b10), (1, r.width.bit)] :: bytes)
        (.pair operation (.register r) (.immediate imm))
  | conditionalJump {operation : Operation} {cccc : Fin 16}
      (h : operation.conditionCode? = some cccc) (offset : Int8) :
      Encodes [packFields [(4, 0b0111), (4, cccc)], offset.toUInt8] (.jump operation offset)
  | loopJump {operation : Operation} {cc : Fin 4} (h : operation.loopCode? = some cc)
      (offset : Int8) :
      Encodes [packFields [(6, 0b111000), (2, cc)], offset.toUInt8] (.jump operation offset)

/-- Without sign extension an immediate is written as it is. -/
theorem EncodesImmediate.short {w : Width} {bytes : List UInt8} {imm : Immediate}
    (h : EncodesImmediate w bytes imm) : EncodesShort false w bytes imm := by
  cases h with
  | byte value => exact .byte false value
  | word value => exact .word value

/-! ## Lengths -/

theorem EncodesOperand.length_le {w : Width} {mode : Fin 4} {rm : Fin 8} {bytes : List UInt8}
    {operand : Operand} (h : EncodesOperand w mode rm bytes operand) : bytes.length ≤ 2 := by
  cases h with
  | register => exact Nat.zero_le 2
  | wordDisplacement => exact Nat.le_refl 2
  | byteDisplacement => exact Nat.le_succ 1
  | noDisplacement => exact Nat.zero_le 2
  | direct => exact Nat.le_refl 2

theorem EncodesImmediate.length_le {w : Width} {bytes : List UInt8} {imm : Immediate}
    (h : EncodesImmediate w bytes imm) : bytes.length ≤ 2 := by
  cases h with
  | byte => exact Nat.le_succ 1
  | word => exact Nat.le_refl 2

theorem EncodesShort.length_le {s : Bool} {w : Width} {bytes : List UInt8} {imm : Immediate}
    (h : EncodesShort s w bytes imm) : bytes.length ≤ 2 := by
  cases h with
  | byte => exact Nat.le_succ 1
  | word => exact Nat.le_refl 2
  | extended => exact Nat.le_succ 1

/-- Every encoding has a first byte and at most five more. -/
theorem Encodes.length_le {bytes : List UInt8} {i : Instruction} (h : Encodes bytes i) :
    0 < bytes.length ∧ bytes.length ≤ 6 := by
  cases h with
  | registerPair hlead d r h =>
      have := h.length_le
      simp only [List.length_cons]
      omega
  | movImmediateToRegister r h =>
      have := h.length_le
      simp only [List.length_cons]
      omega
  | movImmediate free h hi =>
      have := h.length_le
      have := hi.length_le
      simp only [List.length_cons, List.length_append]
      omega
  | movAccumulator d hr address => simp
  | arithmeticImmediate ho h hi =>
      have := h.length_le
      have := hi.length_le
      simp only [List.length_cons, List.length_append]
      omega
  | arithmeticAccumulator ho hr h =>
      have := h.length_le
      simp only [List.length_cons]
      omega
  | conditionalJump h offset => simp
  | loopJump h offset => simp

end Machine8086
