import Machine8086.Proofs.Memory
import Machine8086.Proofs.Reader

/-!
# Decoding against the encoding table

The decoder selects a form by masks and then reads fields one after another; the encoding table
lists whole instructions. They meet in `Form.Rest`, which says for each form what may follow a
given first byte: the reader of the form reads exactly that (`reads_reader`), and the table allows
exactly that (`encodes_cons_iff`). So the reader of instructions succeeds exactly on encodings
(`reads_instructionReader`), and decoding in memory on the encodings that end in time
(`decode_eq_ok_iff_encodes`).
-/

namespace Machine8086

open ByteReader

/-- A statement about all bytes follows from its 256 instances. -/
theorem forall_byte {p : UInt8 → Prop} (h : ∀ n : Fin 256, p (UInt8.ofFin n)) (byte : UInt8) :
    p byte :=
  h byte.toFin

@[simp] theorem Width.bit_ofBit (b : Bool) : (Width.ofBit b).bit = b.toNat := by
  cases b <;> rfl

/-! ## The addressing byte -/

theorem AddressingByte.packFields_ofByte (byte : UInt8) :
    packFields [(2, (ofByte byte).mode), (3, (ofByte byte).register),
      (3, (ofByte byte).operand)] = byte := by
  revert byte
  exact forall_byte (by decide +kernel)

theorem AddressingByte.ofByte_packFields : ∀ mode register operand,
    ofByte (packFields [(2, (mode : Fin 4).val), (3, (register : Fin 8).val),
      (3, (operand : Fin 8).val)]) = ⟨mode, register, operand⟩ := by
  decide +kernel

theorem AddressingByte.reads_reader : Reads reader fun used a =>
    used = [packFields [(2, a.mode), (3, a.register), (3, a.operand)]] := by
  refine (reads_map ofByte reads_byte).congr fun used a => ?_
  constructor
  · rintro ⟨value, rfl, rfl⟩
    rw [packFields_ofByte]
  · rintro rfl
    exact ⟨_, rfl, (ofByte_packFields a.mode a.register a.operand).symm⟩

theorem AddressBase.code_eq_six_iff (base : AddressBase) : base.code = 6 ↔ base = .bp := by
  cases base <;> decide

theorem AddressingByte.reads_operandReader (a : AddressingByte) (w : Width) :
    Reads (a.operandReader w) (EncodesOperand w a.mode a.operand) := by
  obtain ⟨mode, register, rm⟩ := a
  -- one case for each `mod`; only without displacement does the code of `bp` mean something else
  match mode with
  | 3 =>
    refine (reads_pure (Operand.register (.ofCode w rm))).congr fun used operand => ?_
    constructor
    · rintro ⟨rfl, rfl⟩
      simpa using EncodesOperand.register (Register.ofCode w rm)
    · intro h
      cases h with
      | register r => exact ⟨rfl, congrArg Operand.register (Register.ofCode_code r).symm⟩
  | 2 =>
    refine (reads_map (fun value => Operand.memory (.based (.ofCode rm) value.toInt16))
      reads_word).congr fun used operand => ?_
    constructor
    · rintro ⟨value, rfl, rfl⟩
      simpa using EncodesOperand.wordDisplacement w (AddressBase.ofCode rm) value.toInt16
    · intro h
      cases h with
      | wordDisplacement w base d =>
        exact ⟨_, rfl, congrArg (fun base => Operand.memory (.based base d))
          (AddressBase.ofCode_code base).symm⟩
  | 1 =>
    refine (reads_map (fun value => Operand.memory (.based (.ofCode rm) value.toInt16))
      reads_signedByte).congr fun used operand => ?_
    constructor
    · rintro ⟨value, ⟨signed, rfl, rfl⟩, rfl⟩
      simpa using EncodesOperand.byteDisplacement w (AddressBase.ofCode rm) signed
    · intro h
      cases h with
      | byteDisplacement w base d =>
        exact ⟨_, ⟨d, rfl, rfl⟩, congrArg (fun base => Operand.memory (.based base d.toInt16))
          (AddressBase.ofCode_code base).symm⟩
  | 0 =>
    have hread : operandReader ⟨0, register, rm⟩ w = if rm = 6
        then ByteReader.word >>= fun value => pure (Operand.memory (.direct value))
        else pure (Operand.memory (.based (.ofCode rm) 0)) := rfl
    rw [hread]
    split
    case isTrue hrm =>
      refine (reads_map (fun value => Operand.memory (.direct value)) reads_word).congr
        fun used operand => ?_
      constructor
      · rintro ⟨value, rfl, rfl⟩
        exact hrm ▸ .direct w value
      · intro h
        cases h with
        | noDisplacement w base hbase =>
          exact absurd ((AddressBase.code_eq_six_iff base).1 hrm) hbase
        | direct w address => exact ⟨address, rfl, rfl⟩
    case isFalse hrm =>
      refine (reads_pure (Operand.memory (.based (.ofCode rm) 0))).congr fun used operand => ?_
      constructor
      · rintro ⟨rfl, rfl⟩
        have hbase : AddressBase.ofCode rm ≠ .bp := fun h =>
          hrm (by rw [← AddressBase.code_ofCode rm, h]; rfl)
        simpa using EncodesOperand.noDisplacement w (AddressBase.ofCode rm) hbase
      · intro h
        cases h with
        | noDisplacement w base hbase =>
          exact ⟨rfl, congrArg (fun base => Operand.memory (.based base 0))
            (AddressBase.ofCode_code base).symm⟩
        | direct w address => exact absurd rfl hrm

/-! ## Forms -/

/-- What may follow a first byte with the fields `d` and `w` and an operation. -/
def PairRest (opcode : UInt8) (operation : Operation) (used : List UInt8) (i : Instruction) :
    Prop :=
  ∃ (mode : Fin 4) (rm : Fin 8) (r : Register) (bytes : List UInt8) (operand : Operand),
    r.width = .ofBit (bitOf opcode 0) ∧
    used = packFields [(2, mode), (3, r.code), (3, rm)] :: bytes ∧
    EncodesOperand r.width mode rm bytes operand ∧
    i = if bitOf opcode 1 then .pair operation (.register r) operand.toSource
      else .pair operation operand (.register r)

/-- What may follow a first byte of each form, in terms of the fields of that byte. -/
def Form.Rest (opcode : UInt8) : Form → List UInt8 → Instruction → Prop
  | movRegister, used, i => PairRest opcode .mov used i
  | movImmediateToRegister, used, i =>
    ∃ imm, EncodesImmediate (.ofBit (bitOf opcode 3)) used imm ∧
      i = .pair .mov (.register (.ofCode (.ofBit (bitOf opcode 3)) (fieldOf opcode 0)))
        (.immediate imm)
  | movImmediate, used, i =>
    ∃ (mode : Fin 4) (free rm : Fin 8) (bytes valueBytes : List UInt8) (operand : Operand)
      (imm : Immediate),
      used = packFields [(2, mode), (3, free), (3, rm)] :: (bytes ++ valueBytes) ∧
      EncodesOperand (.ofBit (bitOf opcode 0)) mode rm bytes operand ∧
      EncodesImmediate (.ofBit (bitOf opcode 0)) valueBytes imm ∧
      i = .pair .mov operand (.immediate imm)
  | movAccumulator, used, i =>
    ∃ address, used = wordBytes address ∧
      i = if bitOf opcode 1
        then .pair .mov (.memory (.direct address))
          (.register (accumulator (.ofBit (bitOf opcode 0))))
        else .pair .mov (.register (accumulator (.ofBit (bitOf opcode 0))))
          (.memory (.direct address))
  | arithmeticRegister, used, i =>
    ∃ operation, Operation.ofArithmeticField? (fieldOf opcode 3) = some operation ∧
      PairRest opcode operation used i
  | arithmeticImmediate, used, i =>
    ∃ (mode : Fin 4) (ooo rm : Fin 8) (operation : Operation) (bytes valueBytes : List UInt8)
      (operand : Operand) (imm : Immediate),
      used = packFields [(2, mode), (3, ooo), (3, rm)] :: (bytes ++ valueBytes) ∧
      Operation.ofArithmeticField? ooo = some operation ∧
      EncodesOperand (.ofBit (bitOf opcode 0)) mode rm bytes operand ∧
      EncodesShort (bitOf opcode 1) (.ofBit (bitOf opcode 0)) valueBytes imm ∧
      i = .pair operation operand (.immediate imm)
  | arithmeticAccumulator, used, i =>
    ∃ operation imm, Operation.ofArithmeticField? (fieldOf opcode 3) = some operation ∧
      EncodesImmediate (.ofBit (bitOf opcode 0)) used imm ∧
      i = .pair operation (.register (accumulator (.ofBit (bitOf opcode 0)))) (.immediate imm)
  | conditionalJump, used, i =>
    ∃ offset : Int8, used = [offset.toUInt8] ∧ i = .jump (.ofConditionField opcode) offset
  | loopJump, used, i =>
    ∃ offset : Int8, used = [offset.toUInt8] ∧ i = .jump (.ofLoopField opcode) offset

theorem reads_registerPairReader (opcode : UInt8) (operation : Operation) :
    Reads (registerPairReader opcode >>= fun operands => pure ⟨operation, operands⟩)
      (PairRest opcode operation) := by
  refine (reads_map _ (reads_bind AddressingByte.reads_reader fun a =>
    reads_map _ (a.reads_operandReader (.ofBit (bitOf opcode 0))))).congr fun used i => ?_
  constructor
  · rintro ⟨operands, ⟨first, second, a, rfl, rfl, operand, hoperand, rfl⟩, rfl⟩
    refine ⟨a.mode, a.operand, .ofCode (.ofBit (bitOf opcode 0)) a.register, second, operand,
      Register.width_ofCode .., ?_, ?_, ?_⟩
    · rw [Register.code_ofCode]
      rfl
    · rwa [Register.width_ofCode]
    · cases bitOf opcode 1 <;> rfl
  · rintro ⟨mode, rm, r, bytes, operand, hwidth, rfl, hoperand, rfl⟩
    -- the `w` bit selects the width of `r`, so its code selects `r` again
    refine ⟨_, ⟨[packFields [(2, mode), (3, r.code), (3, rm)]], bytes, ⟨mode, r.code, rm⟩, rfl,
      rfl, operand, ?_, rfl⟩, ?_⟩
    · rwa [← hwidth]
    · rw [← hwidth, Register.ofCode_code]
      cases bitOf opcode 1 <;> rfl

/-- Each form's reader reads what may follow the first byte. -/
theorem Form.reads_reader (opcode : UInt8) (form : Form) :
    Reads (form.reader opcode) (form.Rest opcode) := by
  cases form with
  | movRegister => exact reads_registerPairReader opcode .mov
  | movImmediateToRegister => exact reads_map _ (reads_immediate _)
  | movImmediate =>
    refine (reads_bind AddressingByte.reads_reader fun a =>
      reads_bind (a.reads_operandReader (.ofBit (bitOf opcode 0))) fun operand =>
        reads_map _ (reads_immediate _)).congr fun used i => ?_
    constructor
    · rintro ⟨first, second, a, rfl, rfl, bytes, valueBytes, operand, rfl, hoperand, imm, himm, rfl⟩
      exact ⟨a.mode, a.register, a.operand, bytes, valueBytes, operand, imm, rfl, hoperand, himm,
        rfl⟩
    · rintro ⟨mode, free, rm, bytes, valueBytes, operand, imm, rfl, hoperand, himm, rfl⟩
      exact ⟨_, _, ⟨mode, free, rm⟩, rfl, rfl, bytes, valueBytes, operand, rfl, hoperand, imm,
        himm, rfl⟩
  | movAccumulator => exact reads_map _ reads_word
  | arithmeticRegister =>
    refine (reads_bind (reads_require _) fun operation =>
      reads_registerPairReader opcode operation).congr fun used i => ?_
    constructor
    · rintro ⟨first, second, operation, rfl, ⟨rfl, hoperation⟩, hpair⟩
      exact ⟨operation, hoperation, hpair⟩
    · rintro ⟨operation, hoperation, hpair⟩
      -- checking the operation uses no bytes
      exact ⟨[], used, operation, rfl, ⟨rfl, hoperation⟩, hpair⟩
  | arithmeticImmediate =>
    refine (reads_bind AddressingByte.reads_reader fun a =>
      reads_bind (reads_require _) fun operation =>
        reads_bind (a.reads_operandReader (.ofBit (bitOf opcode 0))) fun operand =>
          reads_map _ (reads_immediateOrShort _ _)).congr fun used i => ?_
    constructor
    · rintro ⟨first, second, a, rfl, rfl, none, third, operation, rfl, ⟨rfl, hoperation⟩, bytes,
        valueBytes, operand, rfl, hoperand, imm, himm, rfl⟩
      exact ⟨a.mode, a.register, a.operand, operation, bytes, valueBytes, operand, imm, rfl,
        hoperation, hoperand, himm, rfl⟩
    · rintro ⟨mode, ooo, rm, operation, bytes, valueBytes, operand, imm, rfl, hoperation, hoperand,
        himm, rfl⟩
      exact ⟨_, _, ⟨mode, ooo, rm⟩, rfl, rfl, [], _, operation, rfl, ⟨rfl, hoperation⟩, bytes,
        valueBytes, operand, rfl, hoperand, imm, himm, rfl⟩
  | arithmeticAccumulator =>
    refine (reads_bind (reads_require _) fun operation =>
      reads_map _ (reads_immediate (.ofBit (bitOf opcode 0)))).congr fun used i => ?_
    constructor
    · rintro ⟨first, second, operation, rfl, ⟨rfl, hoperation⟩, imm, himm, rfl⟩
      exact ⟨operation, imm, hoperation, himm, rfl⟩
    · rintro ⟨operation, imm, hoperation, himm, rfl⟩
      exact ⟨[], used, operation, rfl, ⟨rfl, hoperation⟩, imm, himm, rfl⟩
  | conditionalJump => exact reads_signed (Instruction.jump (.ofConditionField opcode))
  | loopJump => exact reads_signed (Instruction.jump (.ofLoopField opcode))

/-! ## First bytes

Each row of the table puts fields into its first byte; the form that byte selects and the fields
the decoder takes out of it are the ones that were put in. Conversely a byte that selects a form
consists of the fields of that form. -/

namespace Form

theorem ofByte?_movRegister (d : Bool) (w : Width) :
    let opcode := packFields [(6, 0b100010), (1, d.toNat), (1, w.bit)]
    ofByte? opcode = some movRegister ∧ bitOf opcode 1 = d ∧ .ofBit (bitOf opcode 0) = w := by
  cases d <;> cases w <;> decide

theorem ofByte?_movImmediateToRegister (w : Width) (code : Fin 8) :
    let opcode := packFields [(4, 0b1011), (1, w.bit), (3, code)]
    ofByte? opcode = some movImmediateToRegister ∧ .ofBit (bitOf opcode 3) = w ∧
      fieldOf opcode 0 = code := by
  revert code
  cases w <;> decide

theorem ofByte?_movImmediate (w : Width) :
    let opcode := packFields [(7, 0b1100011), (1, w.bit)]
    ofByte? opcode = some movImmediate ∧ .ofBit (bitOf opcode 0) = w := by
  cases w <;> decide

theorem ofByte?_movAccumulator (d : Bool) (w : Width) :
    let opcode := packFields [(6, 0b101000), (1, d.toNat), (1, w.bit)]
    ofByte? opcode = some movAccumulator ∧ bitOf opcode 1 = d ∧ .ofBit (bitOf opcode 0) = w := by
  cases d <;> cases w <;> decide

theorem ofByte?_arithmeticRegister (ooo : Fin 8) (d : Bool) (w : Width) :
    let opcode := packFields [(2, 0b00), (3, ooo), (1, 0b0), (1, d.toNat), (1, w.bit)]
    ofByte? opcode = some arithmeticRegister ∧ fieldOf opcode 3 = ooo ∧ bitOf opcode 1 = d ∧
      .ofBit (bitOf opcode 0) = w := by
  revert ooo
  cases d <;> cases w <;> decide

theorem ofByte?_arithmeticImmediate (s : Bool) (w : Width) :
    let opcode := packFields [(6, 0b100000), (1, s.toNat), (1, w.bit)]
    ofByte? opcode = some arithmeticImmediate ∧ bitOf opcode 1 = s ∧
      .ofBit (bitOf opcode 0) = w := by
  cases s <;> cases w <;> decide

theorem ofByte?_arithmeticAccumulator (ooo : Fin 8) (w : Width) :
    let opcode := packFields [(2, 0b00), (3, ooo), (2, 0b10), (1, w.bit)]
    ofByte? opcode = some arithmeticAccumulator ∧ fieldOf opcode 3 = ooo ∧
      .ofBit (bitOf opcode 0) = w := by
  revert ooo
  cases w <;> decide

theorem ofByte?_conditionalJump {operation : Operation} {cccc : Fin 16}
    (h : operation.conditionCode? = some cccc) :
    let opcode := packFields [(4, 0b0111), (4, cccc)]
    ofByte? opcode = some conditionalJump ∧ .ofConditionField opcode = operation := by
  cases operation <;> cases h <;> decide

theorem ofByte?_loopJump {operation : Operation} {cc : Fin 4}
    (h : operation.loopCode? = some cc) :
    let opcode := packFields [(6, 0b111000), (2, cc)]
    ofByte? opcode = some loopJump ∧ .ofLoopField opcode = operation := by
  cases operation <;> cases h <;> decide

/-- The fields into which a form divides a first byte. -/
def fields (opcode : UInt8) : Form → List (Nat × Nat)
  | movRegister => [(6, 0b100010), (1, (bitOf opcode 1).toNat), (1, (bitOf opcode 0).toNat)]
  | movImmediateToRegister => [(4, 0b1011), (1, (bitOf opcode 3).toNat), (3, fieldOf opcode 0)]
  | movImmediate => [(7, 0b1100011), (1, (bitOf opcode 0).toNat)]
  | movAccumulator => [(6, 0b101000), (1, (bitOf opcode 1).toNat), (1, (bitOf opcode 0).toNat)]
  | arithmeticRegister =>
    [(2, 0b00), (3, fieldOf opcode 3), (1, 0b0), (1, (bitOf opcode 1).toNat),
      (1, (bitOf opcode 0).toNat)]
  | arithmeticImmediate =>
    [(6, 0b100000), (1, (bitOf opcode 1).toNat), (1, (bitOf opcode 0).toNat)]
  | arithmeticAccumulator =>
    [(2, 0b00), (3, fieldOf opcode 3), (2, 0b10), (1, (bitOf opcode 0).toNat)]
  | conditionalJump => [(4, 0b0111), (4, (Fin.ofNat 16 opcode.toNat).val)]
  | loopJump => [(6, 0b111000), (2, (Fin.ofNat 4 opcode.toNat).val)]

/-- A byte that selects a form consists of the fields of that form. -/
theorem packFields_fields {opcode : UInt8} {form : Form} (h : ofByte? opcode = some form) :
    packFields (form.fields opcode) = opcode := by
  have key : ∀ opcode, ∀ form ∈ ofByte? opcode, packFields (form.fields opcode) = opcode :=
    forall_byte (by decide +kernel)
  exact key opcode form h

end Form

namespace Operation

theorem ofArithmeticField?_eq_some_iff (ooo : Fin 8) (operation : Operation) :
    ofArithmeticField? ooo = some operation ↔ operation.arithmeticCode? = some ooo := by
  revert ooo
  cases operation <;> decide

theorem conditionCode?_ofConditionField (opcode : UInt8) :
    (ofConditionField opcode).conditionCode? = some (Fin.ofNat 16 opcode.toNat) := by
  revert opcode
  exact forall_byte (by decide +kernel)

theorem loopCode?_ofLoopField (opcode : UInt8) :
    (ofLoopField opcode).loopCode? = some (Fin.ofNat 4 opcode.toNat) := by
  revert opcode
  exact forall_byte (by decide +kernel)

end Operation

theorem accumulator_width {r : Register} (h : r = .al ∨ r = .ax) : accumulator r.width = r := by
  rcases h with rfl | rfl <;> rfl

theorem accumulator_eq (w : Width) : accumulator w = .al ∨ accumulator w = .ax := by
  cases w with
  | byte => exact .inl rfl
  | word => exact .inr rfl

theorem width_accumulator (w : Width) : (accumulator w).width = w := by
  cases w <;> rfl

/-! ## The table and the forms -/

theorem Encodes.cons_congr {first opcode : UInt8} {used : List UInt8} {i : Instruction}
    (h : Encodes (first :: used) i) (hfirst : first = opcode) : Encodes (opcode :: used) i :=
  hfirst ▸ h

theorem encodes_of_pairRest {lead : List (Nat × Nat)} {operation : Operation} {opcode : UInt8}
    {used : List UInt8} {i : Instruction} (hlead : LeadsPair lead operation)
    (hopcode :
      packFields (lead ++ [(1, (bitOf opcode 1).toNat), (1, (bitOf opcode 0).toNat)]) = opcode)
    (h : PairRest opcode operation used i) : Encodes (opcode :: used) i := by
  obtain ⟨mode, rm, r, bytes, operand, hwidth, rfl, hoperand, rfl⟩ := h
  have hrow := Encodes.registerPair hlead (bitOf opcode 1) r hoperand
  rw [hwidth, Width.bit_ofBit] at hrow
  exact hrow.cons_congr hopcode

/-- What a form allows after a first byte, the table allows. -/
theorem encodes_of_rest {opcode : UInt8} {form : Form} {used : List UInt8} {i : Instruction}
    (hform : Form.ofByte? opcode = some form) (h : form.Rest opcode used i) :
    Encodes (opcode :: used) i := by
  -- the opcode consists of the fields of its form, which are the fields of a row
  have hopcode := Form.packFields_fields hform
  cases form with
  | movRegister => exact encodes_of_pairRest .mov hopcode h
  | movImmediateToRegister =>
    obtain ⟨imm, himm, rfl⟩ := h
    have hrow := Encodes.movImmediateToRegister
      (.ofCode (.ofBit (bitOf opcode 3)) (fieldOf opcode 0)) (by rwa [Register.width_ofCode])
    rw [Register.width_ofCode, Register.code_ofCode, Width.bit_ofBit] at hrow
    exact hrow.cons_congr hopcode
  | movImmediate =>
    obtain ⟨mode, free, rm, bytes, valueBytes, operand, imm, rfl, hoperand, himm, rfl⟩ := h
    have hrow := Encodes.movImmediate free hoperand himm
    rw [Width.bit_ofBit] at hrow
    exact hrow.cons_congr hopcode
  | movAccumulator =>
    obtain ⟨address, rfl, rfl⟩ := h
    have hrow := Encodes.movAccumulator (bitOf opcode 1)
      (accumulator_eq (.ofBit (bitOf opcode 0))) address
    rw [width_accumulator, Width.bit_ofBit] at hrow
    exact hrow.cons_congr hopcode
  | arithmeticRegister =>
    obtain ⟨operation, hoperation, hpair⟩ := h
    rw [Operation.ofArithmeticField?_eq_some_iff] at hoperation
    exact encodes_of_pairRest (.arithmetic hoperation) hopcode hpair
  | arithmeticImmediate =>
    obtain ⟨mode, ooo, rm, operation, bytes, valueBytes, operand, imm, rfl, hoperation, hoperand,
      himm, rfl⟩ := h
    rw [Operation.ofArithmeticField?_eq_some_iff] at hoperation
    have hrow := Encodes.arithmeticImmediate hoperation hoperand himm
    rw [Width.bit_ofBit] at hrow
    exact hrow.cons_congr hopcode
  | arithmeticAccumulator =>
    obtain ⟨operation, imm, hoperation, himm, rfl⟩ := h
    rw [Operation.ofArithmeticField?_eq_some_iff] at hoperation
    have hrow := Encodes.arithmeticAccumulator hoperation (accumulator_eq (.ofBit (bitOf opcode 0)))
      (by rwa [width_accumulator])
    rw [width_accumulator, Width.bit_ofBit] at hrow
    exact hrow.cons_congr hopcode
  | conditionalJump =>
    obtain ⟨offset, rfl, rfl⟩ := h
    have hcode := Operation.conditionCode?_ofConditionField opcode
    exact (Encodes.conditionalJump hcode offset).cons_congr hopcode
  | loopJump =>
    obtain ⟨offset, rfl, rfl⟩ := h
    have hcode := Operation.loopCode?_ofLoopField opcode
    exact (Encodes.loopJump hcode offset).cons_congr hopcode

/-- What the table allows, the form of the first byte allows. -/
theorem rest_of_encodes {opcode : UInt8} {used : List UInt8} {i : Instruction}
    (h : Encodes (opcode :: used) i) :
    ∃ form, Form.ofByte? opcode = some form ∧ form.Rest opcode used i := by
  -- the first byte of a row selects a form, and the fields taken out are those put in
  cases h with
  | @registerPair _ operation hlead d r mode rm bytes operand hoperand =>
    cases hlead with
    | mov =>
      obtain ⟨hform, hd, hw⟩ := Form.ofByte?_movRegister d r.width
      refine ⟨.movRegister, hform, mode, rm, r, bytes, operand, hw.symm, rfl, hoperand, ?_⟩
      rw [List.cons_append, List.nil_append, hd]
    | @arithmetic _ ooo hoperation =>
      obtain ⟨hform, hooo, hd, hw⟩ := Form.ofByte?_arithmeticRegister ooo d r.width
      refine ⟨.arithmeticRegister, hform, operation, ?_, mode, rm, r, bytes, operand, hw.symm, rfl,
        hoperand, ?_⟩
      · rw [List.cons_append, List.cons_append, List.cons_append, List.nil_append, hooo]
        exact (Operation.ofArithmeticField?_eq_some_iff ooo _).2 hoperation
      · rw [List.cons_append, List.cons_append, List.cons_append, List.nil_append, hd]
  | @movImmediateToRegister r _ imm himm =>
    obtain ⟨hform, hw, hcode⟩ := Form.ofByte?_movImmediateToRegister r.width r.code
    refine ⟨.movImmediateToRegister, hform, imm, by rwa [hw], ?_⟩
    rw [hw, hcode, Register.ofCode_code]
  | movImmediate free hoperand himm =>
    obtain ⟨hform, hw⟩ := Form.ofByte?_movImmediate _
    refine ⟨.movImmediate, hform, _, free, _, _, _, _, _, rfl, ?_, ?_, rfl⟩
    · rwa [hw]
    · rwa [hw]
  | movAccumulator d hr address =>
    obtain ⟨hform, hd, hw⟩ := Form.ofByte?_movAccumulator d _
    refine ⟨.movAccumulator, hform, address, rfl, ?_⟩
    rw [hd, hw, accumulator_width hr]
  | arithmeticImmediate hoperation hoperand himm =>
    obtain ⟨hform, hs, hw⟩ := Form.ofByte?_arithmeticImmediate _ _
    refine ⟨.arithmeticImmediate, hform, _, _, _, _, _, _, _, _, rfl, ?_, ?_, ?_, rfl⟩
    · rwa [Operation.ofArithmeticField?_eq_some_iff]
    · rwa [hw]
    · rwa [hs, hw]
  | @arithmeticAccumulator operation ooo hoperation r hr _ imm himm =>
    obtain ⟨hform, hooo, hw⟩ := Form.ofByte?_arithmeticAccumulator ooo r.width
    refine ⟨.arithmeticAccumulator, hform, operation, imm, ?_, by rwa [hw], ?_⟩
    · rwa [hooo, Operation.ofArithmeticField?_eq_some_iff]
    · rw [hw, accumulator_width hr]
  | conditionalJump hcode offset =>
    obtain ⟨hform, hoperation⟩ := Form.ofByte?_conditionalJump hcode
    exact ⟨.conditionalJump, hform, offset, rfl, by rw [hoperation]⟩
  | loopJump hcode offset =>
    obtain ⟨hform, hoperation⟩ := Form.ofByte?_loopJump hcode
    exact ⟨.loopJump, hform, offset, rfl, by rw [hoperation]⟩

theorem encodes_cons_iff (opcode : UInt8) (used : List UInt8) (i : Instruction) :
    Encodes (opcode :: used) i ↔
      ∃ form, Form.ofByte? opcode = some form ∧ form.Rest opcode used i := by
  constructor
  · exact rest_of_encodes
  · rintro ⟨form, hform, hrest⟩
    exact encodes_of_rest hform hrest

/-- The reader of instructions reads exactly what the table allows after the first byte. -/
theorem reads_instructionReader (opcode : UInt8) :
    Reads (instructionReader opcode) fun used i => Encodes (opcode :: used) i := by
  unfold instructionReader
  cases hform : Form.ofByte? opcode with
  | none =>
    intro bytes i rest
    constructor
    · intro h
      cases h
    · rintro ⟨used, -, h⟩
      -- every row has a first byte that selects a form
      obtain ⟨form, hsome, -⟩ := rest_of_encodes h
      rw [hform] at hsome
      cases hsome
  | some form =>
    refine (Form.reads_reader opcode form).congr fun used i => ?_
    rw [encodes_cons_iff, hform]
    constructor
    · intro h
      exact ⟨form, rfl, h⟩
    · rintro ⟨selected, hselected, h⟩
      cases hselected
      exact h

/-! ## Decoding in memory -/

/-- The reader of instructions accepts the bytes after an address exactly when the bytes from the
address on begin with an encoding. -/
theorem run_readBytes_eq_ok_iff (m : Memory) (address : UInt16) (count : Nat) (i : Instruction)
    (rest : List UInt8) :
    (instructionReader (m.read address)).run (m.readBytes (address + 1) count) = .ok (i, rest) ↔
      ∃ n ≤ count, rest = m.readBytes (address + 1 + UInt16.ofNat n) (count - n) ∧
        Encodes (m.readBytes address (n + 1)) i := by
  rw [reads_instructionReader]
  constructor
  · rintro ⟨used, hbytes, hused⟩
    have hlength := congrArg List.length hbytes
    rw [Memory.length_readBytes, List.length_append] at hlength
    have hfirst := Memory.readBytes_length_of_append hbytes
    refine ⟨used.length, by omega, ?_, by rwa [Memory.readBytes, hfirst]⟩
    rw [hlength, Memory.readBytes_add] at hbytes
    rw [hlength, Nat.add_sub_cancel_left]
    exact (List.append_inj_right hbytes (Memory.length_readBytes ..)).symm
  · rintro ⟨n, hn, rfl, h⟩
    obtain ⟨more, rfl⟩ := Nat.exists_eq_add_of_le hn
    exact ⟨m.readBytes (address + 1) n, by rw [Memory.readBytes_add, Nat.add_sub_cancel_left], h⟩

/-- Decoding succeeds exactly on encodings that end in time, and returns their instruction and
their length. -/
theorem decode_eq_ok_iff (m : Memory) (address : UInt16) (stop : Nat) (d : Decoded) :
    decode m address stop = .ok d ↔
      d.address = address ∧ address.toNat + d.size ≤ min stop addressSpace ∧
        Encodes (m.readBytes address d.size) d.instruction := by
  unfold decode
  dsimp only
  generalize havailable : min stop addressSpace - address.toNat = available
  constructor
  · intro h
    split at h
    · cases h
    · split at h
      case h_1 instruction rest hrun =>
        cases h
        obtain ⟨n, hn, rfl, henc⟩ := (run_readBytes_eq_ok_iff ..).1 hrun
        have hsize : 1 + (min 5 (available - 1) - (min 5 (available - 1) - n)) = n + 1 := by omega
        rw [Memory.length_readBytes, Memory.length_readBytes, hsize]
        refine ⟨rfl, ?_, henc⟩
        dsimp only
        omega
      · cases h
      · cases h
  · rintro ⟨haddress, hstop, henc⟩
    obtain ⟨start, size, instruction⟩ := d
    dsimp only at haddress hstop henc
    have hlength := henc.length_le
    rw [Memory.length_readBytes] at hlength
    -- the tail is cut at five bytes, and no encoding has more of them after the first
    obtain ⟨n, rfl⟩ : ∃ n, size = n + 1 := ⟨size - 1, by omega⟩
    have hsize : 1 + (min 5 (available - 1) - (min 5 (available - 1) - n)) = n + 1 := by omega
    rw [if_neg (by omega),
      (run_readBytes_eq_ok_iff m address _ instruction _).2 ⟨n, by omega, rfl, henc⟩]
    dsimp only
    rw [Memory.length_readBytes, Memory.length_readBytes, hsize, haddress]

/-- An instruction that ends in time for one bound is decoded alike for every later bound. -/
theorem decode_mono {m : Memory} {address : UInt16} {stop stop' : Nat} {d : Decoded}
    (h : decode m address stop = .ok d) (hstop : min stop addressSpace ≤ stop') :
    decode m address stop' = .ok d := by
  rw [decode_eq_ok_iff] at h ⊢
  obtain ⟨haddress, hend, hencodes⟩ := h
  exact ⟨haddress, by omega, hencodes⟩

theorem decode_end_le {m : Memory} {address : UInt16} {stop : Nat} {d : Decoded}
    (h : decode m address stop = .ok d) : address.toNat + d.size ≤ min stop addressSpace :=
  ((decode_eq_ok_iff ..).1 h).2.1

/-- Decoding, also where it fails, depends only on the bytes from the address up to the bound. -/
theorem decode_congr {m n : Memory} {address : UInt16} {stop : Nat}
    (h : ∀ a : UInt16, address.toNat ≤ a.toNat → a.toNat < stop → m.read a = n.read a) :
    decode m address stop = decode n address stop := by
  have haddress := address.toNat_lt
  rw [decode, decode]
  by_cases hempty : min stop addressSpace - address.toNat = 0
  · rw [if_pos hempty, if_pos hempty]
  · have hspace : addressSpace = 65536 := rfl
    have hopcode : m.read address = n.read address := h address (Nat.le_refl _) (by omega)
    have htail : m.readBytes (address + 1) (min 5 (min stop addressSpace - address.toNat - 1)) =
        n.readBytes (address + 1) (min 5 (min stop addressSpace - address.toNat - 1)) := by
      refine Memory.readBytes_congr fun i hi => h _ ?_ ?_
      -- the tail ends before the bound, so its addresses do not wrap
      all_goals
        rw [UInt16.toNat_add, UInt16.toNat_add, UInt16.toNat_one, UInt16.toNat_ofNat']
        omega
    rw [if_neg hempty, if_neg hempty, hopcode, htail]

theorem Decoded.next_eq_ofNat (d : Decoded) : d.next = UInt16.ofNat (d.address.toNat + d.size) := by
  rw [next, UInt16.ofNat_add, UInt16.ofNat_toNat]

/-- The decoder accepts exactly the encoding table. -/
theorem decode_eq_ok_iff_encodes (m : Memory) (cursor : UInt16) (stop : Nat) (i : Instruction)
    (n : Nat) :
    decode m cursor stop = .ok ⟨cursor, n, i⟩ ↔
      cursor.toNat + n ≤ min stop addressSpace ∧ Encodes (m.readBytes cursor n) i := by
  rw [decode_eq_ok_iff]
  exact and_iff_right rfl

end Machine8086
