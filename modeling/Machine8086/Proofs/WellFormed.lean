import Machine8086.Proofs.Decoding

/-!
# Well-formed instructions

The type of instructions admits combinations that no bytes stand for: a jump with two operands,
two memory operands, operands of different widths, a byte immediate above 255. `WellFormed` rules
these out and nothing else; `decodable_iff_wellFormed` says that what is left is exactly what the
decoder can return. One direction holds in every row of the encoding table, the other finds a row
and bytes for each well-formed instruction.
-/

namespace Machine8086

/-- The value of an immediate fits the width it carries. -/
def Immediate.Fits (imm : Immediate) : Prop := imm.value.toNat < 2 ^ imm.width.bits

instance (imm : Immediate) : Decidable imm.Fits := inferInstanceAs (Decidable (_ < _))

/-- A destination and a source that can stand in one instruction. -/
def Matched : Operand → Source → Prop
  | .register r, .register q => q.width = r.width
  | .register r, .immediate imm => imm.width = r.width ∧ imm.Fits
  | .register _, .memory _ => True
  | .memory _, .register _ => True
  | .memory _, .immediate imm => imm.Fits
  | .memory _, .memory _ => False

instance : (destination : Operand) → (source : Source) → Decidable (Matched destination source)
  | .register _, .register _ => inferInstanceAs (Decidable (_ = _))
  | .register _, .immediate _ => inferInstanceAs (Decidable (_ ∧ _))
  | .register _, .memory _ => inferInstanceAs (Decidable True)
  | .memory _, .register _ => inferInstanceAs (Decidable True)
  | .memory _, .immediate imm => inferInstanceAs (Decidable imm.Fits)
  | .memory _, .memory _ => inferInstanceAs (Decidable False)

namespace Instruction

/-- Jumps take an offset and all other operations take two operands that match. -/
def WellFormed (i : Instruction) : Prop :=
  match i.operands with
  | .pair destination source => i.operation.isRelativeJump = false ∧ Matched destination source
  | .relative _ => i.operation.isRelativeJump = true

instance : (i : Instruction) → Decidable i.WellFormed
  | ⟨_, .pair _ _⟩ => inferInstanceAs (Decidable (_ ∧ _))
  | ⟨_, .relative _⟩ => inferInstanceAs (Decidable (_ = _))

/-- The decoder returns the instruction for some memory, address and end. -/
def Decodable (i : Instruction) : Prop :=
  ∃ m address stop d, decode m address stop = .ok d ∧ d.instruction = i

end Instruction

/-- The operand can take part at a width. -/
def Operand.HasWidth (w : Width) : Operand → Prop
  | .register r => r.width = w
  | .memory _ => True

/-- The source can take part at a width. -/
def Source.HasWidth (w : Width) : Source → Prop
  | .register r => r.width = w
  | .memory _ => True
  | .immediate imm => imm.width = w ∧ imm.Fits

/-- Matched operands have one width in common, the one that the pair reports. -/
theorem Matched.exists_width {destination : Operand} {source : Source}
    (h : Matched destination source) :
    ∃ w, (Operands.pair destination source).width? = some w ∧ destination.HasWidth w ∧
      source.HasWidth w := by
  cases destination with
  | register r =>
    cases source with
    | register q => exact ⟨r.width, rfl, rfl, h⟩
    | memory o => exact ⟨r.width, rfl, rfl, trivial⟩
    | immediate imm => exact ⟨r.width, rfl, rfl, h⟩
  | memory o =>
    cases source with
    | register q => exact ⟨q.width, rfl, trivial, rfl⟩
    | memory p => exact h.elim
    | immediate imm => exact ⟨imm.width, rfl, trivial, rfl, h⟩

/-- The width that matched operands have in common is the one that the pair reports. -/
theorem Matched.width?_eq {w : Width} {destination : Operand} {source : Source}
    (h : Matched destination source) (hd : destination.HasWidth w) (hs : source.HasWidth w) :
    (Operands.pair destination source).width? = some w := by
  cases destination with
  | register r => exact congrArg some hd
  | memory o =>
    cases source with
    | register q => exact congrArg some hs
    | memory p => exact h.elim
    | immediate imm => exact congrArg some hs.1

/-! ## Encodings are well-formed -/

theorem EncodesOperand.hasWidth {w : Width} {mode : Fin 4} {rm : Fin 8} {bytes : List UInt8}
    {operand : Operand} (h : EncodesOperand w mode rm bytes operand) : operand.HasWidth w := by
  cases h with
  | register r => exact rfl
  | wordDisplacement => trivial
  | byteDisplacement => trivial
  | noDisplacement => trivial
  | direct => trivial

theorem Immediate.fits_ofByte (value : UInt8) : (Immediate.ofByte value).Fits := value.toNat_lt

theorem Immediate.fits_ofWord (value : UInt16) : (Immediate.ofWord value).Fits := value.toNat_lt

theorem EncodesImmediate.hasWidth {w : Width} {bytes : List UInt8} {imm : Immediate}
    (h : EncodesImmediate w bytes imm) : (Source.immediate imm).HasWidth w := by
  cases h with
  | byte value => exact ⟨rfl, Immediate.fits_ofByte value⟩
  | word value => exact ⟨rfl, Immediate.fits_ofWord value⟩

theorem EncodesShort.hasWidth {s : Bool} {w : Width} {bytes : List UInt8} {imm : Immediate}
    (h : EncodesShort s w bytes imm) : (Source.immediate imm).HasWidth w := by
  cases h with
  | byte s value => exact ⟨rfl, Immediate.fits_ofByte value⟩
  | word value => exact ⟨rfl, Immediate.fits_ofWord value⟩
  | extended value => exact ⟨rfl, Immediate.fits_ofWord _⟩

theorem matched_immediate {w : Width} {operand : Operand} {imm : Immediate}
    (h : operand.HasWidth w) (hi : (Source.immediate imm).HasWidth w) :
    Matched operand (.immediate imm) := by
  cases operand with
  | register r => exact ⟨hi.1.trans h.symm, hi.2⟩
  | memory o => exact hi.2

theorem LeadsPair.not_jump {lead : List (Nat × Nat)} {operation : Operation}
    (h : LeadsPair lead operation) : operation.isRelativeJump = false := by
  cases h with
  | mov => rfl
  | arithmetic h => cases operation <;> cases h <;> rfl

theorem Operation.not_jump_of_arithmeticCode? {operation : Operation} {ooo : Fin 8}
    (h : operation.arithmeticCode? = some ooo) : operation.isRelativeJump = false :=
  (LeadsPair.arithmetic h).not_jump

theorem Encodes.wellFormed {bytes : List UInt8} {i : Instruction} (h : Encodes bytes i) :
    i.WellFormed := by
  cases h with
  | @registerPair _ operation hlead d r _ _ _ operand hoperand =>
    have hwidth := hoperand.hasWidth
    -- the direction tells which of the two is the destination; the widths agree either way
    cases d with
    | false =>
      refine ⟨hlead.not_jump, ?_⟩
      cases operand with
      | register q => exact hwidth.symm
      | memory o => trivial
    | true =>
      refine ⟨hlead.not_jump, ?_⟩
      cases operand with
      | register q => exact hwidth
      | memory o => trivial
  | movImmediateToRegister r himm => exact ⟨rfl, himm.hasWidth⟩
  | movImmediate free hoperand himm =>
    exact ⟨rfl, matched_immediate hoperand.hasWidth himm.hasWidth⟩
  | movAccumulator d hr address =>
    cases d with
    | false => exact ⟨rfl, trivial⟩
    | true => exact ⟨rfl, trivial⟩
  | arithmeticImmediate ho hoperand himm =>
    exact ⟨Operation.not_jump_of_arithmeticCode? ho,
      matched_immediate hoperand.hasWidth himm.hasWidth⟩
  | arithmeticAccumulator ho hr himm =>
    exact ⟨Operation.not_jump_of_arithmeticCode? ho, himm.hasWidth⟩
  | @conditionalJump operation _ hcode offset =>
    show operation.isRelativeJump = true
    cases operation <;> cases hcode <;> rfl
  | @loopJump operation _ hcode offset =>
    show operation.isRelativeJump = true
    cases operation <;> cases hcode <;> rfl

/-! ## Well-formed instructions have encodings -/

/-- Every operand has fields and displacement bytes; the word displacement serves all bases. -/
theorem exists_encodesOperand {w : Width} {operand : Operand} (h : operand.HasWidth w) :
    ∃ mode rm bytes, EncodesOperand w mode rm bytes operand := by
  cases operand with
  | register r =>
    cases h
    exact ⟨_, _, _, .register r⟩
  | memory o =>
    -- a word of displacement serves every base, `bp` without displacement included
    cases o with
    | direct address => exact ⟨_, _, _, .direct w address⟩
    | based base displacement => exact ⟨_, _, _, .wordDisplacement w base displacement⟩

theorem exists_encodesImmediate {w : Width} {imm : Immediate}
    (h : (Source.immediate imm).HasWidth w) : ∃ bytes, EncodesImmediate w bytes imm := by
  obtain ⟨value, width⟩ := imm
  obtain ⟨rfl, hfits⟩ := h
  cases width with
  | byte =>
    have hvalue : value.toNat < 256 := hfits
    have himm : (⟨value, .byte⟩ : Immediate) = .ofByte value.toUInt8 := by
      rw [Immediate.ofByte, Immediate.mk.injEq, ← UInt16.toNat_inj, UInt8.toNat_toUInt16,
        UInt16.toNat_toUInt8, Nat.mod_eq_of_lt hvalue]
      exact ⟨rfl, rfl⟩
    exact ⟨[value.toUInt8], himm.symm ▸ EncodesImmediate.byte value.toUInt8⟩
  | word => exact ⟨_, .word value⟩

theorem Operation.eq_mov_or_arithmetic {operation : Operation}
    (h : operation.isRelativeJump = false) :
    operation = .mov ∨ ∃ ooo, operation.arithmeticCode? = some ooo := by
  cases operation <;> first | exact .inl rfl | exact .inr ⟨_, rfl⟩ | cases h

theorem Operation.condition_or_loop {operation : Operation}
    (h : operation.isRelativeJump = true) :
    (∃ cccc, operation.conditionCode? = some cccc) ∨ ∃ cc, operation.loopCode? = some cc := by
  cases operation <;> first | exact .inl ⟨_, rfl⟩ | exact .inr ⟨_, rfl⟩ | cases h

theorem exists_leadsPair {operation : Operation} (h : operation.isRelativeJump = false) :
    ∃ lead, LeadsPair lead operation := by
  rcases Operation.eq_mov_or_arithmetic h with rfl | ⟨ooo, hooo⟩
  · exact ⟨_, .mov⟩
  · exact ⟨_, .arithmetic hooo⟩

/-- An immediate goes to any operand by the rows with an addressing byte. -/
theorem exists_encodes_immediate {operation : Operation} {w : Width} {operand : Operand}
    {imm : Immediate} (hop : operation.isRelativeJump = false) (h : operand.HasWidth w)
    (hi : (Source.immediate imm).HasWidth w) :
    ∃ bytes, Encodes bytes (.pair operation operand (.immediate imm)) := by
  obtain ⟨mode, rm, bytes, hoperand⟩ := exists_encodesOperand h
  obtain ⟨valueBytes, himm⟩ := exists_encodesImmediate hi
  rcases Operation.eq_mov_or_arithmetic hop with rfl | ⟨ooo, hooo⟩
  · exact ⟨_, .movImmediate 0 hoperand himm⟩
  · exact ⟨_, .arithmeticImmediate hooo hoperand himm.short⟩

/-- A register and any operand of its width make up an instruction in either order. -/
theorem exists_encodes_registerPair {operation : Operation} {r : Register} {operand : Operand}
    (hop : operation.isRelativeJump = false) (h : operand.HasWidth r.width) :
    (∃ bytes, Encodes bytes (.pair operation operand (.register r))) ∧
      ∃ bytes, Encodes bytes (.pair operation (.register r) operand.toSource) := by
  obtain ⟨lead, hlead⟩ := exists_leadsPair hop
  obtain ⟨mode, rm, bytes, hoperand⟩ := exists_encodesOperand h
  exact ⟨⟨_, .registerPair hlead false r hoperand⟩, _, .registerPair hlead true r hoperand⟩

theorem Instruction.WellFormed.exists_encodes {i : Instruction} (h : i.WellFormed) :
    ∃ bytes, Encodes bytes i := by
  obtain ⟨operation, operands⟩ := i
  cases operands with
  | pair destination source =>
    obtain ⟨hop, hmatched⟩ := h
    cases source with
    | register r =>
      have hwidth : destination.HasWidth r.width := by
        cases destination with
        | register q => exact hmatched.symm
        | memory o => trivial
      exact (exists_encodes_registerPair hop hwidth).1
    | memory o =>
      cases destination with
      | register r =>
        have hwidth : (Operand.memory o).HasWidth r.width := trivial
        exact (exists_encodes_registerPair hop hwidth).2
      | memory p => exact hmatched.elim
    | immediate imm =>
      cases destination with
      | register r =>
        have hwidth : (Operand.register r).HasWidth r.width := rfl
        exact exists_encodes_immediate hop hwidth hmatched
      | memory o =>
        have hwidth : (Operand.memory o).HasWidth imm.width := trivial
        exact exists_encodes_immediate hop hwidth ⟨rfl, hmatched⟩
  | relative offset =>
    rcases Operation.condition_or_loop h with ⟨cccc, hcode⟩ | ⟨cc, hcode⟩
    · exact ⟨_, .conditionalJump hcode offset⟩
    · exact ⟨_, .loopJump hcode offset⟩

/-! ## The image of the decoder -/

/-- An instruction with an encoding is decoded from a memory that holds the encoding. -/
theorem Encodes.decodable {bytes : List UInt8} {i : Instruction} (h : Encodes bytes i) :
    i.Decodable := by
  have hlength := h.length_le
  have hspace : bytes.length ≤ addressSpace := Nat.le_trans hlength.2 (by decide)
  -- any memory that holds the bytes will do
  refine ⟨Memory.zero.writeBytes 0 bytes, 0, addressSpace, ⟨0, bytes.length, i⟩, ?_, rfl⟩
  rw [decode_eq_ok_iff]
  refine ⟨rfl, ?_, ?_⟩
  · simpa using hspace
  · rwa [Memory.readBytes_writeBytes _ _ hspace]

theorem Instruction.decodable_iff_exists_encodes (i : Instruction) :
    i.Decodable ↔ ∃ bytes, Encodes bytes i := by
  constructor
  · rintro ⟨m, address, stop, d, hd, rfl⟩
    exact ⟨_, ((decode_eq_ok_iff m address stop d).1 hd).2.2⟩
  · rintro ⟨bytes, h⟩
    exact h.decodable

/-- The decoder returns the well-formed instructions and no others. -/
theorem Instruction.decodable_iff_wellFormed (i : Instruction) : i.Decodable ↔ i.WellFormed := by
  rw [decodable_iff_exists_encodes]
  constructor
  · rintro ⟨bytes, h⟩
    exact h.wellFormed
  · exact WellFormed.exists_encodes

theorem Instruction.WellFormed.exists_width {i : Instruction} (h : i.WellFormed)
    (hop : i.operation.isRelativeJump = false) : ∃ w, i.width? = some w := by
  obtain ⟨operation, operands⟩ := i
  cases operands with
  | pair destination source =>
    obtain ⟨w, hw, -, -⟩ := h.2.exists_width
    exact ⟨w, hw⟩
  | relative offset =>
    have hjump : operation.isRelativeJump = true := h
    rw [hop] at hjump
    cases hjump

/-- The image of the decoder: exactly the well-formed instructions, among them instructions with
every memory operand; those that are no jumps have a width. -/
theorem decoder_image :
    (∀ i : Instruction, i.Decodable ↔ i.WellFormed) ∧
      (∀ base displacement, ∃ i : Instruction,
        i.Decodable ∧ i.source? = some (.memory (.based base displacement))) ∧
      (∀ address, ∃ i : Instruction,
        i.Decodable ∧ i.source? = some (.memory (.direct address))) ∧
      ∀ i : Instruction, i.Decodable → i.operation.isRelativeJump = false →
        ∃ w, i.width? = some w := by
  have hload : ∀ o, (Instruction.pair .mov (.register .ax) (.memory o)).Decodable := fun o =>
    (Instruction.decodable_iff_wellFormed _).2 ⟨rfl, trivial⟩
  refine ⟨Instruction.decodable_iff_wellFormed, ?_, ?_, ?_⟩
  · intro base displacement
    exact ⟨_, hload (.based base displacement), rfl⟩
  · intro address
    exact ⟨_, hload (.direct address), rfl⟩
  · intro i hi hop
    exact ((Instruction.decodable_iff_wellFormed i).1 hi).exists_width hop

/-- `mov ax, [bp]` has no form without displacement bytes and is decoded all the same. -/
theorem decoder_image_load_bp :
    let i := Instruction.pair .mov (.register .ax) (.memory (.based .bp 0))
    i.WellFormed ∧ i.operation.isRelativeJump = false ∧ ∃ w, i.width? = some w :=
  ⟨by decide, rfl, decoder_image.2.2.2 _ ((decoder_image.1 _).2 (by decide)) rfl⟩

end Machine8086
