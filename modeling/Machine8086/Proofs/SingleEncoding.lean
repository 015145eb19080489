import Machine8086.Proofs.WellFormed

/-!
# Instructions with a single encoding

The encoding table leaves a choice at most instructions: a displacement of one byte or two, an
immediate that is extended or written whole, the order of two registers, the short rows of the
accumulator, fields that are free. What leaves none is listed in `LeavesNoChoice`, and these are the
instructions with a single encoding (`encodedOnce_iff`).
-/

namespace Machine8086

/-- No two encodings stand for the instruction. -/
def Instruction.EncodedOnce (i : Instruction) : Prop :=
  ∀ bytes bytes', Encodes bytes i → Encodes bytes' i → bytes = bytes'

/-- The operand has no displacement that fits a byte, which could be written with one or two. -/
def Operand.WrittenOnce (operand : Operand) : Prop :=
  ∀ (base : AddressBase) (short : Int8), operand ≠ .memory (.based base short.toInt16)

/-- Nothing in the instruction can be written in more than one way. -/
inductive Instruction.LeavesNoChoice : Instruction → Prop
  | jump (operation : Operation) (offset : Int8) : LeavesNoChoice (.jump operation offset)
  /-- A register and memory, `d` with the register as the destination. MOV has a short row for the
  accumulator and a direct address. -/
  | registerMemory (d : Bool) {operation : Operation} {r : Register} {o : MemoryOperand}
      (ho : (Operand.memory o).WrittenOnce)
      (hshort : ¬ (operation = .mov ∧ (r = .al ∨ r = .ax) ∧ ∃ address, o = .direct address)) :
      LeavesNoChoice (if d then .pair operation (.register r) (.memory o)
        else .pair operation (.memory o) (.register r))
  /-- Arithmetic with an immediate that takes a whole word. -/
  | wordImmediate {operation : Operation} {operand : Operand} {value : UInt16}
      (hop : operation ≠ .mov) (ho : operand.WrittenOnce) (hax : operand ≠ .register .ax)
      (hvalue : ∀ short : Int8, value ≠ short.toInt16.toUInt16) :
      LeavesNoChoice (.pair operation operand (.immediate (.ofWord value)))

/-! ## No choice, one encoding -/

theorem LeadsPair.unique {lead lead' : List (Nat × Nat)} {operation : Operation}
    (h : LeadsPair lead operation) (h' : LeadsPair lead' operation) : lead = lead' := by
  cases h with
  | mov =>
    cases h' with
    | mov => rfl
    | arithmetic hooo => cases hooo
  | arithmetic hooo =>
    cases h' with
    | mov => cases hooo
    | arithmetic hooo' => rw [Option.some.inj (hooo.symm.trans hooo')]

theorem EncodesOperand.unique {w w' : Width} {mode mode' : Fin 4} {rm rm' : Fin 8}
    {bytes bytes' : List UInt8} {operand : Operand} (ho : operand.WrittenOnce)
    (h : EncodesOperand w mode rm bytes operand)
    (h' : EncodesOperand w' mode' rm' bytes' operand) :
    mode = mode' ∧ rm = rm' ∧ bytes = bytes' := by
  cases h with
  | register r =>
    cases h'
    exact ⟨rfl, rfl, rfl⟩
  | wordDisplacement base displacement =>
    cases h' with
    | wordDisplacement => exact ⟨rfl, rfl, rfl⟩
    | byteDisplacement base short => exact absurd rfl (ho _ _)
    | noDisplacement base => exact absurd rfl (ho _ 0)
  | byteDisplacement base short => exact absurd rfl (ho _ _)
  | noDisplacement base => exact absurd rfl (ho _ 0)
  | direct address =>
    cases h'
    exact ⟨rfl, rfl, rfl⟩

/-- What encodes a jump is its operation code and the offset. -/
theorem Encodes.of_jump {bytes : List UInt8} {operation : Operation} {offset : Int8}
    (h : Encodes bytes (.jump operation offset)) :
    (∃ cccc, operation.conditionCode? = some cccc ∧
      bytes = [packFields [(4, 0b0111), (4, cccc)], offset.toUInt8]) ∨
    ∃ cc, operation.loopCode? = some cc ∧
      bytes = [packFields [(6, 0b111000), (2, cc)], offset.toUInt8] := by
  generalize hi : Instruction.jump operation offset = i at h
  cases h with
  | conditionalJump hcode => cases hi; exact .inl ⟨_, hcode, rfl⟩
  | loopJump hcode => cases hi; exact .inr ⟨_, hcode, rfl⟩
  | registerPair hlead d => cases d <;> cases hi
  | movAccumulator d => cases d <;> cases hi
  | _ => cases hi

theorem Operation.loopCode?_eq_none {operation : Operation} {cccc : Fin 16}
    (h : operation.conditionCode? = some cccc) : operation.loopCode? = none := by
  cases operation <;> first | rfl | cases h

theorem encodedOnce_jump (operation : Operation) (offset : Int8) :
    (Instruction.jump operation offset).EncodedOnce := by
  intro bytes bytes' h h'
  rcases h.of_jump with ⟨cccc, hcode, rfl⟩ | ⟨cc, hcode, rfl⟩
  · rcases h'.of_jump with ⟨cccc', hcode', rfl⟩ | ⟨cc', hcode', rfl⟩
    · rw [Option.some.inj (hcode.symm.trans hcode')]
    · rw [Operation.loopCode?_eq_none hcode] at hcode'
      cases hcode'
  · rcases h'.of_jump with ⟨cccc', hcode', rfl⟩ | ⟨cc', hcode', rfl⟩
    · rw [Operation.loopCode?_eq_none hcode'] at hcode
      cases hcode
    · rw [Option.some.inj (hcode.symm.trans hcode')]

theorem Encodes.of_registerMemory {bytes : List UInt8} {d : Bool} {operation : Operation}
    {r : Register} {o : MemoryOperand}
    (h : Encodes bytes (if d then .pair operation (.register r) (.memory o)
      else .pair operation (.memory o) (.register r))) :
    (∃ lead mode rm displacement, LeadsPair lead operation ∧
      EncodesOperand r.width mode rm displacement (.memory o) ∧
      bytes = packFields (lead ++ [(1, d.toNat), (1, r.width.bit)]) ::
        packFields [(2, mode), (3, r.code), (3, rm)] :: displacement) ∨
    (operation = .mov ∧ (r = .al ∨ r = .ax) ∧ ∃ address, o = .direct address) := by
  generalize hi : (if d then Instruction.pair operation (.register r) (.memory o)
    else .pair operation (.memory o) (.register r)) = i at h
  cases h with
  | @registerPair _ _ hlead d' _ _ _ _ operand hoperand =>
    cases operand <;> cases d <;> cases d' <;> cases hi <;>
      exact .inl ⟨_, _, _, _, hlead, hoperand, rfl⟩
  | movAccumulator d' hr address =>
    cases d <;> cases d' <;> cases hi <;> exact .inr ⟨rfl, hr, address, rfl⟩
  | _ => cases d <;> cases hi

theorem Encodes.of_wordImmediate {bytes : List UInt8} {operation : Operation} {operand : Operand}
    {value : UInt16} (h : Encodes bytes (.pair operation operand (.immediate (.ofWord value))))
    (hop : operation ≠ .mov) (hax : operand ≠ .register .ax)
    (hvalue : ∀ short : Int8, value ≠ short.toInt16.toUInt16) :
    ∃ ooo w mode rm displacement, operation.arithmeticCode? = some ooo ∧
      EncodesOperand w mode rm displacement operand ∧
      bytes = packFields [(6, 0b100000), (1, 0), (1, 1)] ::
        packFields [(2, mode), (3, ooo), (3, rm)] :: (displacement ++ wordBytes value) := by
  generalize hi : Instruction.pair operation operand (.immediate (.ofWord value)) = i at h
  cases h with
  | @registerPair _ _ hlead d _ _ _ _ other hoperand =>
    cases other <;> cases d <;> cases hi
  | movAccumulator d => cases d <;> cases hi
  | movImmediateToRegister r => cases hi; exact absurd rfl hop
  | movImmediate => cases hi; exact absurd rfl hop
  | arithmeticImmediate hooo hoperand hshort =>
    cases hshort with
    | byte => cases hi
    | word value => cases hi; exact ⟨_, _, _, _, _, hooo, hoperand, rfl⟩
    | extended short => cases hi; exact absurd rfl (hvalue short)
  | arithmeticAccumulator hooo hr himm =>
    rcases hr with rfl | rfl
    · -- the immediate of `al` is a byte
      cases himm
      cases hi
    · cases hi
      exact absurd rfl hax
  | conditionalJump => cases hi
  | loopJump => cases hi

theorem Instruction.LeavesNoChoice.encodedOnce {i : Instruction} (h : i.LeavesNoChoice) :
    i.EncodedOnce := by
  cases h with
  | jump operation offset => exact encodedOnce_jump operation offset
  | registerMemory d ho hshort =>
    intro bytes bytes' h h'
    rcases h.of_registerMemory with ⟨lead, mode, rm, displacement, hlead, hoperand, rfl⟩ | hrow
    · rcases h'.of_registerMemory with ⟨_, _, _, _, hlead', hoperand', rfl⟩ | hrow
      · obtain rfl := hlead.unique hlead'
        obtain ⟨rfl, rfl, rfl⟩ := EncodesOperand.unique ho hoperand hoperand'
        rfl
      · exact absurd hrow hshort
    · exact absurd hrow hshort
  | wordImmediate hop ho hax hvalue =>
    intro bytes bytes' h h'
    obtain ⟨ooo, w, mode, rm, displacement, hooo, hoperand, rfl⟩ :=
      h.of_wordImmediate hop hax hvalue
    obtain ⟨_, _, _, _, _, hooo', hoperand', rfl⟩ := h'.of_wordImmediate hop hax hvalue
    obtain rfl := Option.some.inj (hooo.symm.trans hooo')
    obtain ⟨rfl, rfl, rfl⟩ := EncodesOperand.unique ho hoperand hoperand'
    rfl

/-! ## Choices, and so several encodings -/

theorem Instruction.EncodedOnce.length_eq {i : Instruction} {bytes bytes' : List UInt8}
    (hone : i.EncodedOnce) (h : Encodes bytes i) (h' : Encodes bytes' i) :
    bytes.length = bytes'.length := congrArg List.length (hone _ _ h h')

/-- The direction shows in the first byte. -/
theorem LeadsPair.direction_ne {lead : List (Nat × Nat)} {operation : Operation}
    (h : LeadsPair lead operation) (w : Width) :
    packFields (lead ++ [(1, 0), (1, w.bit)]) ≠ packFields (lead ++ [(1, 1), (1, w.bit)]) := by
  cases h with
  | mov => cases w <;> decide
  | @arithmetic _ ooo hooo =>
    clear hooo
    cases w <;> revert ooo <;> decide

/-- The register field shows in the addressing byte. -/
theorem packFields_free_ne (mode : Fin 4) (rm : Fin 8) :
    packFields [(2, mode), (3, 0), (3, rm)] ≠ packFields [(2, mode), (3, 1), (3, rm)] := by
  revert mode rm
  decide

/-- Two registers can stand in either field. -/
theorem not_encodedOnce_registers {lead : List (Nat × Nat)} {operation : Operation}
    (hlead : LeadsPair lead operation) {r q : Register} (hwidth : q.width = r.width) :
    ¬ (Instruction.pair operation (.register r) (.register q)).EncodedOnce := by
  intro hone
  have hr : EncodesOperand q.width 0b11 r.code [] (.register r) := hwidth ▸ .register r
  have hq : EncodesOperand r.width 0b11 q.code [] (.register q) := hwidth ▸ .register q
  have hequal := hone _ _ (.registerPair hlead false q hr) (.registerPair hlead true r hq)
  have hfirst := (List.cons.inj hequal).1
  rw [hwidth] at hfirst
  exact hlead.direction_ne r.width hfirst

theorem leavesNoChoice_registerMemory {lead : List (Nat × Nat)} {operation : Operation}
    (hlead : LeadsPair lead operation) (d : Bool) {r : Register} {o : MemoryOperand}
    (hone : (if d then Instruction.pair operation (.register r) (.memory o)
      else .pair operation (.memory o) (.register r)).EncodedOnce) :
    (if d then Instruction.pair operation (.register r) (.memory o)
      else .pair operation (.memory o) (.register r)).LeavesNoChoice := by
  have hrow {mode rm displacement}
      (h : EncodesOperand r.width mode rm displacement (.memory o)) :
      Encodes _ (if d then Instruction.pair operation (.register r) (.memory o)
        else .pair operation (.memory o) (.register r)) := .registerPair hlead d r h
  apply Instruction.LeavesNoChoice.registerMemory d
  · rintro base short ⟨⟩
    have hequal := hone.length_eq (hrow (.wordDisplacement _ base short.toInt16))
      (hrow (.byteDisplacement _ base short))
    simp at hequal
  · rintro ⟨rfl, hr, address, rfl⟩
    cases d with
    | false =>
      have hequal := hone.length_eq (hrow (.direct _ address)) (.movAccumulator true hr address)
      simp at hequal
    | true =>
      have hequal := hone.length_eq (hrow (.direct _ address)) (.movAccumulator false hr address)
      simp at hequal

theorem leavesNoChoice_wordImmediate {operation : Operation} {ooo : Fin 8}
    (hooo : operation.arithmeticCode? = some ooo) {mode : Fin 4} {rm : Fin 8} {operand : Operand}
    {displacement : List UInt8} {value : UInt16}
    (hoperand : EncodesOperand .word mode rm displacement operand)
    (hone : (Instruction.pair operation operand (.immediate (.ofWord value))).EncodedOnce) :
    (Instruction.pair operation operand (.immediate (.ofWord value))).LeavesNoChoice := by
  refine .wordImmediate ?_ ?_ ?_ ?_
  · rintro rfl
    cases hooo
  · rintro base short rfl
    have hequal := hone.length_eq
      (.arithmeticImmediate hooo (.wordDisplacement _ base short.toInt16) (.word value))
      (.arithmeticImmediate hooo (.byteDisplacement _ base short) (.word value))
    simp at hequal
  · rintro rfl
    have hequal := hone.length_eq
      (.arithmeticImmediate hooo hoperand (.word value))
      (.arithmeticAccumulator hooo (.inr rfl) (.word value))
    simp at hequal
  · rintro short rfl
    have hequal := hone.length_eq (.arithmeticImmediate hooo hoperand (.extended short))
      (.arithmeticImmediate hooo hoperand (.word _))
    simp at hequal

theorem Encodes.leavesNoChoice {bytes : List UInt8} {i : Instruction} (h : Encodes bytes i)
    (hone : i.EncodedOnce) : i.LeavesNoChoice := by
  cases h with
  | @registerPair _ operation hlead d r mode rm bytes operand hoperand =>
    cases operand with
    | register q =>
      have hwidth := hoperand.hasWidth
      cases d with
      | false => exact absurd hone (not_encodedOnce_registers hlead hwidth.symm)
      | true => exact absurd hone (not_encodedOnce_registers hlead hwidth)
    | memory o => exact leavesNoChoice_registerMemory hlead d hone
  | movImmediateToRegister r himm =>
    have hequal := hone.length_eq (.movImmediateToRegister r himm)
      (.movImmediate 0 (.register r) himm)
    simp at hequal
  | movImmediate free hoperand himm =>
    have hequal := hone _ _ (.movImmediate 0 hoperand himm) (.movImmediate 1 hoperand himm)
    have hsecond := (List.cons.inj (List.cons.inj hequal).2).1
    exact absurd hsecond (packFields_free_ne _ _)
  | movAccumulator d hr address =>
    cases d with
    | false => exact leavesNoChoice_registerMemory .mov true hone
    | true => exact leavesNoChoice_registerMemory .mov false hone
  | arithmeticImmediate hooo hoperand hshort =>
    cases hshort with
    | byte s value =>
      have hequal := hone _ _ (.arithmeticImmediate hooo hoperand (.byte false value))
        (.arithmeticImmediate hooo hoperand (.byte true value))
      exact absurd (List.cons.inj hequal).1 (by decide)
    | word value => exact leavesNoChoice_wordImmediate hooo hoperand hone
    | extended short => exact leavesNoChoice_wordImmediate hooo hoperand hone
  | arithmeticAccumulator hooo hr himm =>
    have hequal := hone.length_eq (.arithmeticAccumulator hooo hr himm)
      (.arithmeticImmediate hooo (.register _) himm.short)
    simp at hequal
  | conditionalJump hcode offset => exact .jump _ offset
  | loopJump hcode offset => exact .jump _ offset

/-- The instructions with a single encoding are those that leave no choice. -/
theorem encodedOnce_iff {i : Instruction} (h : i.Decodable) :
    i.EncodedOnce ↔ i.LeavesNoChoice := by
  constructor
  · intro hone
    obtain ⟨bytes, hencodes⟩ := (Instruction.decodable_iff_exists_encodes i).1 h
    exact hencodes.leavesNoChoice hone
  · exact Instruction.LeavesNoChoice.encodedOnce

end Machine8086
