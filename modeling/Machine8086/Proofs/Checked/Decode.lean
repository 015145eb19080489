import Machine8086.Checked.Decode
import Machine8086.Proofs.Checked.Text
import Machine8086.Proofs.DecodeErrors

/-!
# Decoding from a stream

Decoding from a stream has no faults and gives what decoding from a list of bytes gives
(`decode_eq`). A reader of a stream follows a reader of a list if it takes the bytes that the other
one uses, of those that are left, and fails where the other one fails (`Follows`). As no more than
five bytes are taken after the first, it does not matter that the list is cut there.
-/

namespace Machine8086.Checked

open StreamReader

/-! ## Tables -/

theorem fieldsOf_eq (byte : UInt8) :
    fieldsOf byte = ⟨(AddressingByte.ofByte byte).mode.val,
      (AddressingByte.ofByte byte).register.val, (AddressingByte.ofByte byte).operand.val⟩ := by
  revert byte
  exact forall_byte (by decide +kernel)

theorem registerOf_eq (w : Width) (code : Fin 8) :
    registerOf w code.val = .ok (.ofCode w code) := by
  revert code
  cases w <;> decide

theorem baseOf_eq (code : Fin 8) : baseOf code.val = .ok (.ofCode code) := by
  revert code
  decide

theorem registerOf_first (opcode : UInt8) (w : Width) :
    registerOf w (opcode &&& 0b111).toNat = .ok (.ofCode w (fieldOf opcode 0)) := by
  have hfield : (opcode &&& 0b111).toNat = (fieldOf opcode 0).val := by
    revert opcode
    exact forall_byte (by decide +kernel)
  rw [hfield, registerOf_eq]

theorem jumpOf_eq {operation : Operation} (h : operation.isRelativeJump = true) (offset : Int8) :
    jumpOf operation offset = .ok (.jump operation offset) := by
  rw [jumpOf, h]
  rfl

theorem entry_conditionalJumps (opcode : UInt8) :
    entry Operation.conditionalJumps (opcode &&& 0b1111).toNat =
      .ok (.ofConditionField opcode) := by
  revert opcode
  exact forall_byte (by decide +kernel)

theorem isRelativeJump_ofConditionField (opcode : UInt8) :
    (Operation.ofConditionField opcode).isRelativeJump = true := by
  revert opcode
  exact forall_byte (by decide +kernel)

theorem entry_loopJumps (opcode : UInt8) :
    entry Operation.loopJumps (opcode &&& 0b11).toNat = .ok (.ofLoopField opcode) := by
  revert opcode
  exact forall_byte (by decide +kernel)

theorem isRelativeJump_ofLoopField (opcode : UInt8) :
    (Operation.ofLoopField opcode).isRelativeJump = true := by
  revert opcode
  exact forall_byte (by decide +kernel)

/-! ## Following a reader of a list -/

namespace ByteStream

/-- The number of bytes that have not been taken. -/
def left (stream : ByteStream) : Nat := stream.available - stream.consumed

/-- No more bytes are taken than there are, and those are in memory. -/
structure Valid (stream : ByteStream) : Prop where
  consumed_le : stream.consumed ≤ stream.available
  available_le : stream.available ≤ addressSpace

/-- The stream after so many more bytes. -/
def advance (stream : ByteStream) (count : Nat) : ByteStream :=
  { stream with
    cursor := stream.cursor + UInt16.ofNat count
    consumed := stream.consumed + count }

variable {stream : ByteStream} {count more : Nat}

theorem Valid.advance (h : stream.Valid) (hcount : count ≤ stream.left) :
    (stream.advance count).Valid where
  consumed_le := by
    have hle := h.consumed_le
    rw [left] at hcount
    show stream.consumed + count ≤ stream.available
    omega
  available_le := h.available_le

theorem left_advance (stream : ByteStream) (count : Nat) :
    (stream.advance count).left = stream.left - count :=
  Nat.sub_add_eq ..

theorem advance_zero (stream : ByteStream) : stream.advance 0 = stream := by
  simp [advance]

theorem advance_advance (stream : ByteStream) (count more : Nat) :
    (stream.advance count).advance more = stream.advance (count + more) := by
  rw [advance, advance, advance, UInt16.ofNat_add, UInt16.add_assoc, Nat.add_assoc]

end ByteStream

variable {α β : Type} {m : Memory} {opcode : UInt8}

/-- The outcomes of a reader of a list and of a reader of a stream correspond. The list holds the
bytes that were left of the stream, cut after `cut`; and no more than `limit` were taken. -/
inductive Corresponds (m : Memory) (opcode : UInt8) (limit cut : Nat) (stream : ByteStream) :
    Except Malformed (α × List UInt8) → Except Fault (Except DecodeError α × ByteStream) → Prop
  | ok (a : α) (count : Nat) (hcount : count ≤ min limit stream.left) :
    Corresponds m opcode limit cut stream
      (.ok (a, m.readBytes (stream.advance count).cursor (min (cut - count) (stream.left - count))))
      (.ok (.ok a, stream.advance count))
  | unknown (stream' : ByteStream) :
    Corresponds m opcode limit cut stream (.error .unknown)
      (.ok (.error (.unknownOpcode opcode stream.start), stream'))
  | truncated (needed : Nat) (stream' : ByteStream) :
    Corresponds m opcode limit cut stream (.error (.truncated needed))
      (.ok (.error (.missingBytes stream.start needed), stream'))

/-- A reader of a stream takes no more than `limit` bytes, and does what the reader of a list does
on the bytes that are left, wherever they are cut after that many. -/
def Follows (m : Memory) (opcode : UInt8) (limit : Nat) (reader : StreamReader α)
    (model : ByteReader α) : Prop :=
  ∀ (stream : ByteStream) (cut : Nat), stream.Valid → limit ≤ cut →
    Corresponds m opcode limit cut stream
      (model.run (m.readBytes stream.cursor (min cut stream.left))) (reader.exec stream)

namespace Follows

variable {limit limit' : Nat} {reader : StreamReader α} {model : ByteReader α}

theorem mono (h : Follows m opcode limit reader model) (hle : limit ≤ limit') :
    Follows m opcode limit' reader model := by
  intro stream cut hvalid hcut
  have hsmaller := h stream cut hvalid (Nat.le_trans hle hcut)
  generalize model.run _ = outcome at hsmaller ⊢
  generalize reader.exec stream = result at hsmaller ⊢
  cases hsmaller with
  | ok a count hcount => exact .ok a count (by omega)
  | unknown stream' => exact .unknown stream'
  | truncated needed stream' => exact .truncated needed stream'

theorem pure (a : α) : Follows m opcode 0 (Pure.pure a) (Pure.pure a) := by
  intro stream cut hvalid hcut
  have hnone : Corresponds m opcode 0 cut stream _ _ := .ok a 0 (Nat.zero_le _)
  rw [stream.advance_zero] at hnone
  exact hnone

theorem refuse : Follows m opcode 0 (unknown opcode : StreamReader α) ByteReader.refuse := by
  intro stream cut hvalid hcut
  exact .unknown stream

theorem bind {next : α → StreamReader β} {modelNext : α → ByteReader β}
    (h : Follows m opcode limit reader model)
    (hnext : ∀ a, Follows m opcode limit' (next a) (modelNext a)) :
    Follows m opcode (limit + limit') (reader >>= next) (model >>= modelNext) := by
  intro stream cut hvalid hcut
  have hfirst := h stream cut hvalid (by omega)
  generalize hmodel :
    model.run (m.readBytes stream.cursor (min cut stream.left)) = outcome at hfirst
  generalize hexec : reader.exec stream = result at hfirst
  cases hfirst with
  | unknown stream' =>
    rw [ByteReader.run_bind_of_error hmodel, Action.exec_bind_of_error hexec]
    exact .unknown stream'
  | truncated needed stream' =>
    rw [ByteReader.run_bind_of_error hmodel, Action.exec_bind_of_error hexec]
    exact .truncated needed stream'
  | ok a count hcount =>
    have hleft : count ≤ stream.left := by omega
    -- what the first reader took is missing from the list and from its cut alike
    have hsecond := hnext a (stream.advance count) (cut - count) (hvalid.advance hleft) (by omega)
    rw [ByteReader.run_bind_of_ok hmodel, Action.exec_bind_of_ok hexec]
    rw [stream.left_advance] at hsecond
    generalize (modelNext a).run _ = outcome at hsecond ⊢
    generalize (next a).exec _ = result at hsecond ⊢
    cases hsecond with
    | unknown stream' => exact .unknown stream'
    | truncated needed stream' => exact .truncated needed stream'
    | ok b more hmore =>
      rw [stream.left_advance] at hmore ⊢
      rw [stream.advance_advance, Nat.sub_sub, Nat.sub_sub]
      exact .ok b (count + more) (by omega)

theorem map (h : Follows m opcode limit reader model) (f : α → β) :
    Follows m opcode limit (reader >>= fun a => Pure.pure (f a))
      (model >>= fun a => Pure.pure (f a)) :=
  h.bind fun a => Follows.pure (f a)

end Follows

/-! ## Taking bytes -/

theorem exec_take_of_le {stream : ByteStream} {count : Nat} (hvalid : stream.Valid)
    (hcount : count ≤ stream.left) :
    (take count).exec stream =
      .ok (.ok (), { stream with consumed := stream.consumed + count }) := by
  have hconsumed := hvalid.consumed_le
  have havailable : stream.available ≤ 65536 := hvalid.available_le
  rw [ByteStream.left] at hcount
  have hsum : sum 32 stream.consumed count = .ok (stream.consumed + count) :=
    sum_eq_ok (by omega)
  rw [take, Action.exec_bind_of_ok (Action.exec_get stream), hsum,
    Action.exec_bind_of_ok (Action.exec_lift_ok _ _), if_neg (by omega)]
  rfl

theorem exec_take_of_lt {stream : ByteStream} {count : Nat} (hvalid : stream.Valid)
    (hcount : stream.left < count) (hsmall : count ≤ 2) :
    (take count).exec stream =
      .ok (.error (.missingBytes stream.start (count - stream.left)), stream) := by
  have hconsumed := hvalid.consumed_le
  have havailable : stream.available ≤ 65536 := hvalid.available_le
  rw [ByteStream.left] at hcount
  have hsum : sum 32 stream.consumed count = .ok (stream.consumed + count) :=
    sum_eq_ok (by omega)
  have hmissing : difference (stream.consumed + count) stream.available =
      .ok (count - stream.left) := by
    rw [difference_eq_ok (by omega), ByteStream.left]
    congr 1
    omega
  rw [take, Action.exec_bind_of_ok (Action.exec_get stream), hsum,
    Action.exec_bind_of_ok (Action.exec_lift_ok _ _), if_pos (by omega), hmissing]
  rfl

theorem follows_byte : Follows m opcode 1 (StreamReader.byte m) ByteReader.byte := by
  intro stream cut hvalid hcut
  rw [StreamReader.byte]
  by_cases hleft : 1 ≤ stream.left
  · rw [Action.exec_bind_of_ok (exec_take_of_le hvalid hleft)]
    obtain ⟨more, hmore⟩ : ∃ more, min cut stream.left = more + 1 :=
      ⟨min cut stream.left - 1, by omega⟩
    have hrest : more = min (cut - 1) (stream.left - 1) := by omega
    rw [hmore, Memory.readBytes, hrest]
    exact .ok (m.read stream.cursor) 1 (by omega)
  · have hnone : min cut stream.left = 0 := by omega
    rw [Action.exec_bind_of_error (exec_take_of_lt hvalid (by omega) (by omega)), hnone]
    have hmissing : 1 - stream.left = 1 := by omega
    rw [hmissing]
    exact .truncated 1 stream

theorem follows_word : Follows m opcode 2 (StreamReader.word m) ByteReader.word := by
  intro stream cut hvalid hcut
  rw [StreamReader.word]
  by_cases hleft : 2 ≤ stream.left
  · rw [Action.exec_bind_of_ok (exec_take_of_le hvalid hleft)]
    obtain ⟨more, hmore⟩ : ∃ more, min cut stream.left = more + 2 :=
      ⟨min cut stream.left - 2, by omega⟩
    have hrest : more = min (cut - 2) (stream.left - 2) := by omega
    rw [hmore, Memory.readBytes, Memory.readBytes, hrest, UInt16.add_assoc]
    exact .ok (m.readWord stream.cursor) 2 (by omega)
  · -- with one byte left the list fails on the second byte, the stream on the whole word
    rw [Action.exec_bind_of_error (exec_take_of_lt hvalid (by omega) (by omega))]
    rcases Nat.eq_zero_or_pos stream.left with hzero | hpos
    · have hnone : min cut stream.left = 0 := by omega
      rw [hnone, hzero]
      exact .truncated 2 stream
    · have hone : stream.left = 1 := by omega
      have hsingle : min cut stream.left = 0 + 1 := by omega
      rw [hsingle, hone]
      exact .truncated 1 stream

theorem follows_signedByte :
    Follows m opcode 1 (StreamReader.signedByte m) ByteReader.signedByte :=
  follows_byte.map fun value => value.toInt8.toInt16.toUInt16

theorem follows_immediate (w : Width) :
    Follows m opcode 2 (StreamReader.immediate m w) (ByteReader.immediate w) := by
  cases w with
  | byte => exact (follows_byte.map Immediate.ofByte).mono (by decide)
  | word => exact follows_word.map Immediate.ofWord

theorem follows_immediateOrShort (short : Bool) (w : Width) :
    Follows m opcode 2 (StreamReader.immediateOrShort m short w)
      (ByteReader.immediateOrShort short w) := by
  match short, w with
  | true, .word => exact (follows_signedByte.map Immediate.ofWord).mono (by decide)
  | true, .byte => exact follows_immediate .byte
  | false, w =>
    have himmediate : Follows m opcode 2 (StreamReader.immediate m w) (ByteReader.immediate w) :=
      follows_immediate w
    cases w <;> exact himmediate

theorem follows_require (o : Option α) :
    Follows m opcode 0 (StreamReader.require opcode o) (ByteReader.require o) := by
  cases o with
  | some a => exact .pure a
  | none => exact .refuse

/-! ## Operands and forms -/

theorem follows_operand (a : AddressingByte) (w : Width) :
    Follows m opcode 2 (operand m ⟨a.mode.val, a.register.val, a.operand.val⟩ w)
      (a.operandReader w) := by
  obtain ⟨mode, register, rm⟩ := a
  -- one case for each mode; only without displacement does the operand field decide as well
  match mode with
  | 3 =>
    simp only [operand, registerOf_eq, Action.lift_ok_bind]
    exact (Follows.pure _).mono (by decide)
  | 2 =>
    simp only [operand, baseOf_eq, Action.lift_ok_bind]
    exact follows_word.map fun value => Operand.memory (.based (.ofCode rm) value.toInt16)
  | 1 =>
    simp only [operand, baseOf_eq, Action.lift_ok_bind]
    exact (follows_signedByte.map fun value =>
      Operand.memory (.based (.ofCode rm) value.toInt16)).mono (by decide)
  | 0 =>
    have hdirect : rm.val = 6 ↔ rm = 6 := by
      rw [Fin.ext_iff]
      rfl
    simp only [operand, AddressingByte.operandReader, baseOf_eq, Action.lift_ok_bind, hdirect]
    split
    · exact follows_word.map fun address => Operand.memory (.direct address)
    · exact (Follows.pure _).mono (by decide)

/-- What follows an addressing byte is read with its fields. -/
theorem Follows.addressing (limit : Nat) {next : Fields → StreamReader α}
    {model : AddressingByte → ByteReader α}
    (h : ∀ a : AddressingByte, Follows m opcode limit
      (next ⟨a.mode.val, a.register.val, a.operand.val⟩) (model a)) :
    Follows m opcode (1 + limit) (StreamReader.addressing m >>= next)
      (AddressingByte.reader >>= model) := by
  rw [StreamReader.addressing, AddressingByte.reader, bind_assoc, bind_assoc]
  refine follows_byte.bind fun byte => ?_
  rw [pure_bind, pure_bind, fieldsOf_eq]
  exact h _

theorem follows_registerPair :
    Follows m opcode 3 (registerPair m opcode) (registerPairReader opcode) := by
  refine Follows.addressing 2 fun a => ?_
  simp only [registerOf_eq, Action.lift_ok_bind]
  exact (follows_operand a _).map _

theorem follows_ofForm (form : Form) :
    Follows m opcode 5 (ofForm m opcode form) (form.reader opcode) := by
  have haccumulator : ∀ w, registerOf w 0 = .ok (accumulator w) := fun w => registerOf_eq w 0
  cases form with
  | movRegister =>
    exact (follows_registerPair.map (Instruction.mk .mov)).mono (by decide : 3 ≤ 5)
  | movImmediateToRegister =>
    simp only [ofForm, Form.reader, registerOf_first, Action.lift_ok_bind]
    exact ((follows_immediate _).map _).mono (by decide)
  | movImmediate =>
    refine Follows.addressing 4 fun a => ?_
    exact (follows_operand a _).bind fun destination => (follows_immediate _).map _
  | movAccumulator =>
    simp only [ofForm, Form.reader, haccumulator, Action.lift_ok_bind]
    exact (follows_word.map _).mono (by decide)
  | arithmeticRegister =>
    refine Follows.mono ?_ (by decide : 0 + 3 ≤ 5)
    exact (follows_require _).bind fun operation =>
      follows_registerPair.map (Instruction.mk operation)
  | arithmeticImmediate =>
    refine Follows.addressing 4 fun a => ?_
    simp only [Fin.ofNat_val_eq_self]
    refine Follows.mono ?_ (by decide : 0 + (2 + 2) ≤ 4)
    refine (follows_require _).bind fun operation => ?_
    exact (follows_operand a _).bind fun destination => (follows_immediateOrShort _ _).map _
  | arithmeticAccumulator =>
    simp only [ofForm, Form.reader, haccumulator, Action.lift_ok_bind]
    refine Follows.mono ?_ (by decide : 0 + 2 ≤ 5)
    exact (follows_require _).bind fun operation => (follows_immediate _).map _
  | conditionalJump =>
    simp only [ofForm, Form.reader, entry_conditionalJumps, Action.lift_ok_bind,
      jumpOf_eq (isRelativeJump_ofConditionField opcode)]
    exact (follows_byte.map fun offset =>
      Instruction.jump (.ofConditionField opcode) offset.toInt8).mono (by decide)
  | loopJump =>
    simp only [ofForm, Form.reader, entry_loopJumps, Action.lift_ok_bind,
      jumpOf_eq (isRelativeJump_ofLoopField opcode)]
    exact (follows_byte.map fun offset =>
      Instruction.jump (.ofLoopField opcode) offset.toInt8).mono (by decide)

/-! ## Decoding -/

/-- After its first byte an instruction is read as the model reads it from what is left, cut after
five bytes. -/
theorem exec_instruction {stream : ByteStream} (hvalid : stream.Valid) (hleft : 1 ≤ stream.left) :
    Corresponds m (m.read stream.cursor) 5 5 (stream.advance 1)
      ((instructionReader (m.read stream.cursor)).run
        (m.readBytes (stream.cursor + 1) (min 5 (stream.left - 1))))
      ((instruction m).exec stream) := by
  have hbyte : (StreamReader.byte m).exec stream =
      .ok (.ok (m.read stream.cursor), stream.advance 1) := by
    rw [StreamReader.byte, Action.exec_bind_of_ok (exec_take_of_le hvalid hleft)]
    rfl
  have hrest : ∀ {reader : StreamReader Instruction} {model : ByteReader Instruction},
      Follows m (m.read stream.cursor) 5 reader model →
        Corresponds m (m.read stream.cursor) 5 5 (stream.advance 1)
          (model.run (m.readBytes (stream.cursor + 1) (min 5 (stream.left - 1))))
          (reader.exec (stream.advance 1)) := by
    intro reader model hfollows
    have hread := hfollows (stream.advance 1) 5 (hvalid.advance hleft) (Nat.le_refl 5)
    rwa [stream.left_advance] at hread
  rw [instruction, Action.exec_bind_of_ok hbyte, instructionReader]
  cases Form.ofByte? (m.read stream.cursor) with
  | some form => exact hrest (follows_ofForm form)
  | none => exact hrest (Follows.refuse.mono (by decide))

/-- Decoding has no faults; it gives the instruction and moves the cursor past it, or fails and
leaves the cursor where it was. -/
theorem decode_eq (m : Memory) (cursor : UInt16) (stop : Nat) :
    (decode m stop).exec cursor = .ok
      (match Machine8086.decode m cursor stop with
        | .ok d => (.ok d.instruction, d.next)
        | .error e => (.error e, cursor)) := by
  rw [decode, Action.exec_bind_of_ok (Action.exec_get cursor), Machine8086.decode]
  by_cases hempty : min stop addressSpace - cursor.toNat = 0
  · rw [if_pos hempty, if_pos (by omega)]
    rfl
  · rw [if_neg hempty, if_neg (by omega)]
    generalize havailable : min stop addressSpace - cursor.toNat = available at hempty
    have hspace : available ≤ addressSpace := by omega
    have hread := @exec_instruction m ⟨cursor, cursor, 0, available⟩ ⟨Nat.zero_le _, hspace⟩
      (Nat.pos_of_ne_zero hempty)
    simp only [ByteStream.left, Nat.sub_zero] at hread
    dsimp only
    generalize (instructionReader (m.read cursor)).run _ = outcome at hread ⊢
    generalize (instruction m).exec _ = result at hread ⊢
    cases hread with
    | unknown stream' => rfl
    | truncated needed stream' => rfl
    | ok i count hcount =>
      have hleft : (ByteStream.advance ⟨cursor, cursor, 0, available⟩ 1).left = available - 1 := rfl
      rw [hleft] at hcount ⊢
      have hused : min 5 (available - 1) - min (5 - count) (available - 1 - count) = count := by
        omega
      have hnext : cursor + UInt16.ofNat (1 + count) = cursor + 1 + UInt16.ofNat count := by
        rw [UInt16.ofNat_add, UInt16.add_assoc]
        rfl
      simp only [Memory.length_readBytes, hused, Decoded.next, hnext, Action.lift_ok_bind,
        text_eq]
      rfl

end Machine8086.Checked
