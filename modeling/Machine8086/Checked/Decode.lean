import Machine8086.Checked.Text
import Machine8086.Decode

/-!
# Decoding from a stream

An instruction is decoded from a stream: a cursor in memory with the number of bytes taken so far
and the number of bytes there are, both of 32 bits. Fields of a byte select entries of tables. The
cursor of the caller moves only when an instruction has been decoded.
-/

namespace Machine8086.Checked

/-- Bytes of memory from `start` on, of which `consumed` have been taken. -/
structure ByteStream where
  start : UInt16
  cursor : UInt16
  consumed : Nat
  available : Nat
  deriving Repr

/-- Reading from a stream. -/
abbrev StreamReader := Action ByteStream DecodeError

/-- The base expressions, by their codes. -/
def addressBases : List AddressBase := [.bxSi, .bxDi, .bpSi, .bpDi, .si, .di, .bp, .bx]

/-- The register of a width that a field of three bits stands for. -/
def registerOf (width : Width) (field : Nat) : Except Fault Register := do
  assert (field < 8)
  entry Register.all (field % 8 + if width = .word then 8 else 0)

/-- The base that a field of three bits stands for. -/
def baseOf (field : Nat) : Except Fault AddressBase := do
  assert (field < 8)
  entry addressBases (field % 8)

/-- A jump; other operations are excluded. -/
def jumpOf (operation : Operation) (offset : Int8) : Except Fault Instruction := do
  assert operation.isRelativeJump
  return .jump operation offset

/-- The fields of an addressing byte: mode, register and operand. -/
structure Fields where
  mode : Nat
  register : Nat
  operand : Nat
  deriving DecidableEq, Repr

/-- Splits an addressing byte. -/
def fieldsOf (byte : UInt8) : Fields :=
  ⟨((byte >>> 6) &&& 0b11).toNat, ((byte >>> 3) &&& 0b111).toNat, (byte &&& 0b111).toNat⟩

namespace StreamReader

/-- Counts so many more bytes as taken, if there are as many. -/
def take (count : Nat) : StreamReader Unit := do
  let stream ← get
  let wanted ← sum 32 stream.consumed count
  if stream.available < wanted then
    throw (.missingBytes stream.start (← difference wanted stream.available))
  set { stream with consumed := wanted }

/-- Refuses the instruction for its first byte. -/
def unknown {α : Type} (opcode : UInt8) : StreamReader α := do
  let stream ← get
  throw (.unknownOpcode opcode stream.start)

/-- The given value; refuses the instruction if there is none. -/
def require {α : Type} (opcode : UInt8) : Option α → StreamReader α
  | some a => return a
  | none => unknown opcode

variable (m : Memory)

/-- The next byte. -/
def byte : StreamReader UInt8 := do
  take 1
  let stream ← get
  let (value, cursor) := m.pullByte stream.cursor
  set { stream with cursor }
  return value

/-- The next word, low byte first. -/
def word : StreamReader UInt16 := do
  take 2
  let stream ← get
  let (value, cursor) := m.pullWord stream.cursor
  set { stream with cursor }
  return value

/-- The next byte, sign-extended to a word. -/
def signedByte : StreamReader UInt16 := return (← byte m).toInt8.toInt16.toUInt16

/-- An immediate of the given width. -/
def immediate : Width → StreamReader Immediate
  | .byte => return .ofByte (← byte m)
  | .word => return .ofWord (← word m)

/-- An immediate of the given width; a short word is written as one sign-extended byte. -/
def immediateOrShort : Bool → Width → StreamReader Immediate
  | true, .word => return .ofWord (← signedByte m)
  | _, width => immediate m width

/-- Reads an addressing byte. -/
def addressing : StreamReader Fields := return fieldsOf (← byte m)

/-- The register or memory operand that mode and operand field select. -/
def operand (fields : Fields) (width : Width) : StreamReader Operand :=
  match fields.mode with
  | 3 => return .register (← registerOf width fields.operand)
  | 2 => do
    let base ← baseOf fields.operand
    return .memory (.based base (← word m).toInt16)
  | 1 => do
    let base ← baseOf fields.operand
    return .memory (.based base (← signedByte m).toInt16)
  | _ =>
    if fields.operand = 6 then return .memory (.direct (← word m))
    else return .memory (.based (← baseOf fields.operand) 0)

/-- Operands of the forms `xxxxxxdw`. -/
def registerPair (opcode : UInt8) : StreamReader Operands := do
  let width := Width.ofBit (bitOf opcode 0)
  let fields ← addressing m
  let register ← registerOf width fields.register
  let operand ← operand m fields width
  return if bitOf opcode 1 then .pair (.register register) operand.toSource
    else .pair operand (.register register)

/-- Reads what follows the first byte of an instruction of the given form. -/
def ofForm (opcode : UInt8) : Form → StreamReader Instruction
  | .movRegister => return ⟨.mov, ← registerPair m opcode⟩
  | .movImmediateToRegister => do
    let width := Width.ofBit (bitOf opcode 3)
    let register ← registerOf width (opcode &&& 0b111).toNat
    let imm ← immediate m width
    return .pair .mov (.register register) (.immediate imm)
  | .movImmediate => do
    let width := Width.ofBit (bitOf opcode 0)
    let fields ← addressing m
    let destination ← operand m fields width
    let imm ← immediate m width
    return .pair .mov destination (.immediate imm)
  | .movAccumulator => do
    let register ← registerOf (.ofBit (bitOf opcode 0)) 0
    let address ← word m
    return if bitOf opcode 1 then .pair .mov (.memory (.direct address)) (.register register)
      else .pair .mov (.register register) (.memory (.direct address))
  | .arithmeticRegister => do
    let operation ← require opcode (Operation.ofArithmeticField? (fieldOf opcode 3))
    return ⟨operation, ← registerPair m opcode⟩
  | .arithmeticImmediate => do
    let width := Width.ofBit (bitOf opcode 0)
    let fields ← addressing m
    let operation ← require opcode (Operation.ofArithmeticField? (Fin.ofNat 8 fields.register))
    let destination ← operand m fields width
    let imm ← immediateOrShort m (bitOf opcode 1) width
    return .pair operation destination (.immediate imm)
  | .arithmeticAccumulator => do
    let operation ← require opcode (Operation.ofArithmeticField? (fieldOf opcode 3))
    let width := Width.ofBit (bitOf opcode 0)
    let register ← registerOf width 0
    let imm ← immediate m width
    return .pair operation (.register register) (.immediate imm)
  | .conditionalJump => do
    let offset := (← byte m).toInt8
    jumpOf (← entry Operation.conditionalJumps (opcode &&& 0b1111).toNat) offset
  | .loopJump => do
    let offset := (← byte m).toInt8
    jumpOf (← entry Operation.loopJumps (opcode &&& 0b11).toNat) offset

/-- Reads an instruction from its first byte on. -/
def instruction : StreamReader Instruction := do
  let opcode ← byte m
  match Form.ofByte? opcode with
  | some form => ofForm m opcode form
  | none => unknown opcode

end StreamReader

/-- Decodes the instruction at the cursor from bytes before `stop` and moves the cursor past it. -/
def decode (m : Memory) (stop : Nat) : Action UInt16 DecodeError Instruction := do
  let cursor ← get
  let stop := min stop addressSpace
  if stop ≤ cursor.toNat then throw .endOfStream
  let (result, stream) ← (StreamReader.instruction m).exec ⟨cursor, cursor, 0, stop - cursor.toNat⟩
  match result with
  | .ok instruction =>
    -- the log may ask for the text
    let _ ← text instruction
    set stream.cursor
    return instruction
  | .error error => throw error

end Machine8086.Checked
