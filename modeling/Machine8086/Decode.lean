import Machine8086.Instruction
import Machine8086.Memory
import Machine8086.Numeral
import Machine8086.Opcode

/-!
# Decoding

`decode` turns the bytes at an address into an instruction. It looks at no more than six bytes and
at none from the given end on. `instructionReader` reads what follows the first byte, each form of
instruction in its own way (`Form.reader`); it works on a list of bytes and returns what it did not
use, so that the length of an instruction is the number of bytes used.
-/

namespace Machine8086

/-- Why bytes are no instruction. -/
inductive Malformed where
  /-- No instruction starts with this byte. -/
  | unknown
  /-- The bytes end although so many more are needed next. -/
  | truncated (needed : Nat)
  deriving DecidableEq, Repr

/-- Reading from a list of bytes; the state is what is left. -/
abbrev ByteReader := StateT (List UInt8) (Except Malformed)

namespace ByteReader

/-- The next byte. -/
def byte : ByteReader UInt8 := fun bytes =>
  match bytes with
  | value :: rest => .ok (value, rest)
  | [] => .error (.truncated 1)

/-- The next word, low byte first. -/
def word : ByteReader UInt16 := fun bytes =>
  match bytes with
  | low :: high :: rest => .ok ((high.toUInt16 <<< 8) ||| low.toUInt16, rest)
  | [_] => .error (.truncated 1)
  | [] => .error (.truncated 2)

/-- The next byte, sign-extended to a word. -/
def signedByte : ByteReader UInt16 := do
  return (← byte).toInt8.toInt16.toUInt16

/-- An immediate of the given width. -/
def immediate : Width → ByteReader Immediate
  | .byte => return .ofByte (← byte)
  | .word => return .ofWord (← word)

/-- An immediate of the given width; a short word is written as one sign-extended byte. -/
def immediateOrShort : Bool → Width → ByteReader Immediate
  | true, .word => return .ofWord (← signedByte)
  | _, width => immediate width

/-- Refuses the instruction for its first byte. -/
def refuse {α : Type} : ByteReader α := fun _ => .error .unknown

/-- The given value; refuses the instruction if there is none. -/
def require {α : Type} : Option α → ByteReader α
  | some a => return a
  | none => refuse

end ByteReader

/-- The addressing byte: two bits of mode, a register field and an operand field. -/
structure AddressingByte where
  mode : Fin 4
  register : Fin 8
  operand : Fin 8
  deriving DecidableEq, Repr

namespace AddressingByte

/-- Splits the byte into its fields. -/
def ofByte (byte : UInt8) : AddressingByte :=
  ⟨Fin.ofNat 4 (byte.toNat >>> 6), fieldOf byte 3, fieldOf byte 0⟩

/-- Reads an addressing byte. -/
def reader : ByteReader AddressingByte := return ofByte (← ByteReader.byte)

/-- The register or memory operand that mode and operand field select, after its displacement
bytes. Mode 3 is a register; mode 2 has a word of displacement and mode 1 a signed byte; mode 0 has
none, but operand field 6 stands for a direct address there. -/
def operandReader (a : AddressingByte) (width : Width) : ByteReader Operand :=
  match a.mode with
  | 3 => return .register (.ofCode width a.operand)
  | 2 => return .memory (.based (.ofCode a.operand) (← ByteReader.word).toInt16)
  | 1 => return .memory (.based (.ofCode a.operand) (← ByteReader.signedByte).toInt16)
  | 0 =>
    if a.operand = 6 then return .memory (.direct (← ByteReader.word))
    else return .memory (.based (.ofCode a.operand) 0)

end AddressingByte

/-- Operands of the forms `xxxxxxdw`: an addressing byte, with the register as destination if the
direction bit is set. -/
def registerPairReader (opcode : UInt8) : ByteReader Operands := do
  let width := Width.ofBit (bitOf opcode 0)
  let a ← AddressingByte.reader
  let operand ← a.operandReader width
  let register := Register.ofCode width a.register
  return if bitOf opcode 1 then .pair (.register register) operand.toSource
    else .pair operand (.register register)

/-- The accumulator of a width. -/
def accumulator (width : Width) : Register := .ofCode width 0

/-- Reads what follows the first byte of an instruction of the given form. -/
def Form.reader (opcode : UInt8) : Form → ByteReader Instruction
  | movRegister => return ⟨.mov, ← registerPairReader opcode⟩
  | movImmediateToRegister => do
    let width := Width.ofBit (bitOf opcode 3)
    let imm ← ByteReader.immediate width
    return .pair .mov (.register (.ofCode width (fieldOf opcode 0))) (.immediate imm)
  | movImmediate => do
    let width := Width.ofBit (bitOf opcode 0)
    let a ← AddressingByte.reader
    let destination ← a.operandReader width
    let imm ← ByteReader.immediate width
    return .pair .mov destination (.immediate imm)
  | movAccumulator => do
    let register := accumulator (.ofBit (bitOf opcode 0))
    let address ← ByteReader.word
    return if bitOf opcode 1 then .pair .mov (.memory (.direct address)) (.register register)
      else .pair .mov (.register register) (.memory (.direct address))
  | arithmeticRegister => do
    let operation ← ByteReader.require (Operation.ofArithmeticField? (fieldOf opcode 3))
    return ⟨operation, ← registerPairReader opcode⟩
  | arithmeticImmediate => do
    let width := Width.ofBit (bitOf opcode 0)
    let a ← AddressingByte.reader
    let operation ← ByteReader.require (Operation.ofArithmeticField? a.register)
    let destination ← a.operandReader width
    let imm ← ByteReader.immediateOrShort (bitOf opcode 1) width
    return .pair operation destination (.immediate imm)
  | arithmeticAccumulator => do
    let operation ← ByteReader.require (Operation.ofArithmeticField? (fieldOf opcode 3))
    let width := Width.ofBit (bitOf opcode 0)
    let imm ← ByteReader.immediate width
    return .pair operation (.register (accumulator width)) (.immediate imm)
  | conditionalJump => return .jump (.ofConditionField opcode) (← ByteReader.byte).toInt8
  | loopJump => return .jump (.ofLoopField opcode) (← ByteReader.byte).toInt8

/-- Reads what follows the first byte of an instruction. -/
def instructionReader (opcode : UInt8) : ByteReader Instruction :=
  match Form.ofByte? opcode with
  | some form => form.reader opcode
  | none => ByteReader.refuse

/-- Why no instruction could be decoded. -/
inductive DecodeError where
  /-- There is no byte before the end. -/
  | endOfStream
  | unknownOpcode (opcode : UInt8) (address : UInt16)
  /-- The end lies inside the instruction; `needed` bytes are missing for the next field. -/
  | missingBytes (address : UInt16) (needed : Nat)
  deriving DecidableEq, Repr

/-- The wording of a decoding error. -/
def DecodeError.message : DecodeError → String
  | endOfStream => "end of instruction stream"
  | unknownOpcode opcode address =>
    "unknown opcode 0x" ++ Numeral.upperHex 2 opcode.toNat ++ " at 0x" ++
      Numeral.upperHex 4 address.toNat
  | missingBytes address needed =>
    "instruction at 0x" ++ Numeral.upperHex 4 address.toNat ++ " is truncated (" ++
      Numeral.decimal needed ++ " more byte(s) needed)"

/-- An instruction with the place it was decoded from. -/
structure Decoded where
  address : UInt16
  size : Nat
  instruction : Instruction
  deriving DecidableEq, Repr, Inhabited

/-- The address after a decoded instruction. -/
def Decoded.next (d : Decoded) : UInt16 := d.address + UInt16.ofNat d.size

/-- Decodes the instruction at `address` from bytes before `stop`. -/
def decode (m : Memory) (address : UInt16) (stop : Nat) : Except DecodeError Decoded :=
  let available := min stop addressSpace - address.toNat
  if available = 0 then .error .endOfStream
  else
    let opcode := m.read address
    -- no encoding has more than five bytes after the first
    let tail := m.readBytes (address + 1) (min 5 (available - 1))
    match (instructionReader opcode).run tail with
    | .ok (instruction, rest) => .ok ⟨address, 1 + (tail.length - rest.length), instruction⟩
    | .error .unknown => .error (.unknownOpcode opcode address)
    | .error (.truncated needed) => .error (.missingBytes address needed)

/-- A decoded instruction lies at the address asked for and is not empty. -/
theorem decode_eq_ok {m : Memory} {address : UInt16} {stop : Nat} {d : Decoded}
    (h : decode m address stop = .ok d) : d.address = address ∧ 0 < d.size := by
  unfold decode at h
  dsimp only at h
  split at h
  · cases h
  · split at h
    · cases h
      exact ⟨rfl, by simp only; omega⟩
    · cases h
    · cases h

end Machine8086
