import Machine8086.Proofs.Decoding

/-!
# What the readers take

After its first byte an instruction consists of fields: an addressing byte, a displacement, an
immediate. A reader that takes fields of known sizes (`ByteReader.Takes`) returns behind them, or
fails for what is missing of the first field that does not fit. `Form.fieldSizes` gives these sizes
for each form, in terms of the first two bytes. The other way to fail is an operation that is not
decoded. It stands in the first byte or in the addressing byte, and is looked at before anything
after that byte is asked for (`Form.Refuses`). A form does one or the other (`Form.takes_reader`,
`Form.run_reader_of_refuses`).
-/

namespace Machine8086

namespace ByteReader

variable {α β : Type}

/-! ## Fields that do not fit -/

/-- What is missing of the first field that does not fit, for fields of the given sizes. -/
def shortage : List Nat → Nat → Option Nat
  | [], _ => none
  | size :: sizes, available =>
    if available < size then some (size - available) else shortage sizes (available - size)

theorem shortage_eq_none_iff {sizes : List Nat} {available : Nat} :
    shortage sizes available = none ↔ sizes.sum ≤ available := by
  induction sizes generalizing available with
  | nil => simp [shortage]
  | cons size sizes ih =>
    rw [shortage, List.sum_cons]
    split
    case isTrue hshort =>
      constructor
      · intro h
        cases h
      · omega
    case isFalse hfits =>
      rw [ih]
      omega

theorem lt_sum_of_shortage {sizes : List Nat} {available needed : Nat}
    (h : shortage sizes available = some needed) : available < sizes.sum := by
  by_contra hfits
  cases (shortage_eq_none_iff.2 (Nat.not_lt.1 hfits)).symm.trans h

theorem shortage_append (first second : List Nat) (available : Nat) :
    shortage (first ++ second) available =
      (shortage first available).or (shortage second (available - first.sum)) := by
  induction first generalizing available with
  | nil => rfl
  | cons size sizes ih =>
    rw [List.cons_append, shortage, shortage, List.sum_cons]
    split
    case isTrue hshort => rfl
    case isFalse hfits => rw [ih, Nat.sub_sub]

/-- Bytes beyond all fields are not asked for. -/
theorem shortage_min {sizes : List Nat} {limit : Nat} (h : sizes.sum ≤ limit) (available : Nat) :
    shortage sizes (min limit available) = shortage sizes available := by
  rcases Nat.le_total available limit with hle | hle
  · rw [Nat.min_eq_right hle]
  · rw [Nat.min_eq_left hle, shortage_eq_none_iff.2 h, shortage_eq_none_iff.2 (Nat.le_trans h hle)]

/-- On these bytes the reader takes fields of the given sizes: it returns behind them, or fails for
what is missing of the first that does not fit. -/
structure Takes (reader : ByteReader α) (bytes : List UInt8) (sizes : List Nat) : Prop where
  complete : shortage sizes bytes.length = none →
    ∃ a, reader.run bytes = .ok (a, bytes.drop sizes.sum)
  short : ∀ needed, shortage sizes bytes.length = some needed →
    reader.run bytes = .error (.truncated needed)

theorem run_bind_of_ok {reader : ByteReader α} {next : α → ByteReader β} {bytes rest : List UInt8}
    {a : α} (h : reader.run bytes = .ok (a, rest)) :
    (reader >>= next).run bytes = (next a).run rest := by
  rw [StateT.run_bind, h]
  rfl

theorem run_bind_of_error {reader : ByteReader α} {next : α → ByteReader β} {bytes : List UInt8}
    {why : Malformed} (h : reader.run bytes = .error why) :
    (reader >>= next).run bytes = .error why := by
  rw [StateT.run_bind, h]
  rfl

theorem takes_pure (a : α) (bytes : List UInt8) : Takes (pure a) bytes [] where
  complete _ := ⟨a, rfl⟩
  short _ h := by cases h

/-- A sequence of readers takes the fields of the first and then those of the second. -/
theorem Takes.bind {reader : ByteReader α} {next : α → ByteReader β} {bytes : List UInt8}
    {sizes sizes' : List Nat} (h : Takes reader bytes sizes)
    (h' : ∀ a rest, reader.run bytes = .ok (a, rest) → Takes (next a) rest sizes') :
    Takes (reader >>= next) bytes (sizes ++ sizes') := by
  have happend := shortage_append sizes sizes' bytes.length
  cases hfirst : shortage sizes bytes.length with
  | some needed =>
    rw [hfirst, Option.some_or] at happend
    constructor
    · intro hnone
      cases happend.symm.trans hnone
    · intro needed' hsome
      cases happend.symm.trans hsome
      exact run_bind_of_error (h.short needed hfirst)
  | none =>
    obtain ⟨a, hrun⟩ := h.complete hfirst
    have hnext := h' a _ hrun
    have hbind : (reader >>= next).run bytes = (next a).run (bytes.drop sizes.sum) :=
      run_bind_of_ok hrun
    -- what the first reader leaves is what the second one has
    rw [hfirst, Option.none_or, ← List.length_drop] at happend
    constructor
    · intro hnone
      rw [hbind, List.sum_append, ← List.drop_drop]
      exact hnext.complete (happend.symm.trans hnone)
    · intro needed hsome
      rw [hbind]
      exact hnext.short needed (happend.symm.trans hsome)

theorem Takes.map {reader : ByteReader α} {bytes : List UInt8} {sizes : List Nat}
    (h : Takes reader bytes sizes) (f : α → β) :
    Takes (reader >>= fun a => pure (f a)) bytes sizes := by
  have hbind : Takes (reader >>= fun a => pure (f a)) bytes (sizes ++ []) :=
    h.bind fun a rest _ => takes_pure (f a) rest
  rwa [List.append_nil] at hbind

/-! ## Sizes of fields -/

theorem takes_byte (bytes : List UInt8) : Takes byte bytes [1] := by
  cases bytes with
  | nil => exact ⟨nofun, fun | _, rfl => rfl⟩
  | cons value rest => exact ⟨fun _ => ⟨value, rfl⟩, fun needed h => by simp [shortage] at h⟩

theorem takes_word (bytes : List UInt8) : Takes word bytes [2] := by
  match bytes with
  | [] => exact ⟨nofun, fun | _, rfl => rfl⟩
  | [_] => exact ⟨nofun, fun | _, rfl => rfl⟩
  | low :: high :: rest =>
    exact ⟨fun _ => ⟨(high.toUInt16 <<< 8) ||| low.toUInt16, rfl⟩,
      fun needed h => by simp [shortage] at h⟩

theorem takes_signedByte (bytes : List UInt8) : Takes signedByte bytes [1] :=
  (takes_byte bytes).map fun value => value.toInt8.toInt16.toUInt16

end ByteReader

open ByteReader

/-- The number of bytes of a value. -/
def Width.byteCount : Width → Nat
  | byte => 1
  | word => 2

theorem takes_immediate (w : Width) (bytes : List UInt8) :
    Takes (immediate w) bytes [w.byteCount] := by
  cases w with
  | byte => exact (takes_byte bytes).map Immediate.ofByte
  | word => exact (takes_word bytes).map Immediate.ofWord

/-- The size of an immediate that may be written as one sign-extended byte. -/
def shortByteCount (s : Bool) (w : Width) : Nat := if s then 1 else w.byteCount

theorem takes_immediateOrShort (s : Bool) (w : Width) (bytes : List UInt8) :
    Takes (immediateOrShort s w) bytes [shortByteCount s w] := by
  cases s with
  | false =>
    have h : immediateOrShort false w = immediate w := by cases w <;> rfl
    rw [h]
    exact takes_immediate w bytes
  | true =>
    cases w with
    | byte => exact takes_immediate .byte bytes
    | word => exact (takes_signedByte bytes).map Immediate.ofWord

namespace AddressingByte

/-- The displacement after an addressing byte: none, or one field. -/
def displacementSizes (a : AddressingByte) : List Nat :=
  match a.mode with
  | 3 => []
  | 2 => [2]
  | 1 => [1]
  | 0 => if a.operand = 6 then [2] else []

theorem takes_operandReader (a : AddressingByte) (w : Width) (bytes : List UInt8) :
    Takes (a.operandReader w) bytes a.displacementSizes := by
  obtain ⟨mode, register, rm⟩ := a
  match mode with
  | 3 => exact takes_pure _ bytes
  | 2 => exact (takes_word bytes).map _
  | 1 => exact (takes_signedByte bytes).map _
  | 0 =>
    by_cases hrm : rm = 6
    · subst hrm
      exact (takes_word bytes).map _
    · have hread : operandReader ⟨0, register, rm⟩ w =
          if rm = 6 then ByteReader.word >>= fun value => pure (Operand.memory (.direct value))
          else pure (Operand.memory (.based (.ofCode rm) 0)) := rfl
      have hsizes : displacementSizes ⟨0, register, rm⟩ = if rm = 6 then [2] else [] := rfl
      rw [hread, hsizes, if_neg hrm, if_neg hrm]
      exact takes_pure _ bytes

/-- A reader that begins with an addressing byte, where that byte, if it is there, is known. -/
theorem takes_reader_bind {α : Type} {next : AddressingByte → ByteReader α} {bytes : List UInt8}
    {second : UInt8} {sizes : List Nat} (hsecond : ∀ byte ∈ bytes.head?, byte = second)
    (h : ∀ rest, bytes = second :: rest → Takes (next (ofByte second)) rest sizes) :
    Takes (reader >>= next) bytes (1 :: sizes) := by
  have hreader : Takes reader bytes [1] := (takes_byte bytes).map ofByte
  refine hreader.bind fun a left hrun => ?_
  cases bytes with
  | nil => cases hrun
  | cons value rest =>
    obtain rfl := hsecond value rfl
    obtain ⟨rfl, rfl⟩ := Prod.mk.inj (Except.ok.inj hrun)
    exact h rest rfl

end AddressingByte

/-! ## Forms -/

namespace Form

/-- The sizes of the fields after the first byte. The second byte matters only where it is an
addressing byte. -/
def fieldSizes (opcode second : UInt8) : Form → List Nat
  | movRegister | arithmeticRegister => 1 :: (AddressingByte.ofByte second).displacementSizes
  | movImmediateToRegister => [(Width.ofBit (bitOf opcode 3)).byteCount]
  | movImmediate =>
    1 :: ((AddressingByte.ofByte second).displacementSizes ++
      [(Width.ofBit (bitOf opcode 0)).byteCount])
  | movAccumulator => [2]
  | arithmeticImmediate =>
    1 :: ((AddressingByte.ofByte second).displacementSizes ++
      [shortByteCount (bitOf opcode 1) (.ofBit (bitOf opcode 0))])
  | arithmeticAccumulator => [(Width.ofBit (bitOf opcode 0)).byteCount]
  | conditionalJump | loopJump => [1]

/-- The length of an instruction. -/
def size (opcode second : UInt8) (form : Form) : Nat := 1 + (form.fieldSizes opcode second).sum

end Form

/-- The arithmetic fields of the operations that are decoded: ADD, SUB and CMP. -/
def Operation.arithmeticFields : List (Fin 8) := [0b000, 0b101, 0b111]

theorem Operation.ofArithmeticField?_eq_none_iff (field : Fin 8) :
    ofArithmeticField? field = none ↔ field ∉ arithmeticFields := by
  revert field
  decide

namespace Form

/-- The operation is not decoded. It is part of the first byte, or of the addressing byte if that
byte is there. -/
def Refuses (opcode : UInt8) (second? : Option UInt8) : Form → Prop
  | arithmeticRegister | arithmeticAccumulator => fieldOf opcode 3 ∉ Operation.arithmeticFields
  | arithmeticImmediate => ∃ second ∈ second?, fieldOf second 3 ∉ Operation.arithmeticFields
  | _ => False

end Form

theorem takes_registerPairReader (opcode : UInt8) {bytes : List UInt8} {second : UInt8}
    (hsecond : ∀ byte ∈ bytes.head?, byte = second) :
    Takes (registerPairReader opcode) bytes
      (1 :: (AddressingByte.ofByte second).displacementSizes) :=
  AddressingByte.takes_reader_bind hsecond fun rest _ =>
    (AddressingByte.takes_operandReader _ _ rest).map _

/-- An operation that is decoded is found without taking a byte. -/
theorem takes_require_bind {α : Type} {field : Fin 8} {next : Operation → ByteReader α}
    {bytes : List UInt8} {sizes : List Nat} (hfield : field ∈ Operation.arithmeticFields)
    (h : ∀ operation, Takes (next operation) bytes sizes) :
    Takes (require (Operation.ofArithmeticField? field) >>= next) bytes sizes := by
  have hsome : Operation.ofArithmeticField? field ≠ none := fun hnone =>
    (Operation.ofArithmeticField?_eq_none_iff field).1 hnone hfield
  obtain ⟨operation, hoperation⟩ := Option.ne_none_iff_exists'.1 hsome
  rw [hoperation]
  refine (takes_pure operation bytes).bind fun a rest hrun => ?_
  obtain ⟨rfl, rfl⟩ := Prod.mk.inj (Except.ok.inj hrun)
  exact h operation

namespace Form

/-- A form whose operation is decoded takes its fields. -/
theorem takes_reader {opcode second : UInt8} {bytes : List UInt8} {form : Form}
    (hsecond : ∀ byte ∈ bytes.head?, byte = second)
    (h : ¬ form.Refuses opcode bytes.head?) :
    Takes (form.reader opcode) bytes (form.fieldSizes opcode second) := by
  cases form with
  | movRegister => exact (takes_registerPairReader opcode hsecond).map _
  | movImmediateToRegister => exact (takes_immediate _ bytes).map _
  | movImmediate =>
    exact AddressingByte.takes_reader_bind hsecond fun rest _ =>
      (AddressingByte.takes_operandReader _ _ rest).bind fun destination left _ =>
        (takes_immediate _ left).map _
  | movAccumulator => exact (takes_word bytes).map _
  | arithmeticRegister =>
    exact takes_require_bind (not_not.1 h) fun operation =>
      (takes_registerPairReader opcode hsecond).map _
  | arithmeticImmediate =>
    refine AddressingByte.takes_reader_bind hsecond fun rest hbytes => ?_
    -- the operation is part of the addressing byte, which is there
    have hfield : fieldOf second 3 ∈ Operation.arithmeticFields :=
      not_not.1 fun hfield => h ⟨second, by rw [hbytes]; rfl, hfield⟩
    exact takes_require_bind hfield fun operation =>
      (AddressingByte.takes_operandReader _ _ rest).bind fun destination left _ =>
        (takes_immediateOrShort _ _ left).map _
  | arithmeticAccumulator =>
    exact takes_require_bind (not_not.1 h) fun operation => (takes_immediate _ bytes).map _
  | conditionalJump => exact (takes_byte bytes).map _
  | loopJump => exact (takes_byte bytes).map _

/-- An operation that is not decoded is refused whatever follows. -/
theorem run_reader_of_refuses {opcode : UInt8} {bytes : List UInt8} {form : Form}
    (h : form.Refuses opcode bytes.head?) : (form.reader opcode).run bytes = .error .unknown := by
  cases form with
  | arithmeticRegister | arithmeticAccumulator =>
    rw [reader, (Operation.ofArithmeticField?_eq_none_iff _).2 h]
    rfl
  | arithmeticImmediate =>
    obtain ⟨second, hhead, hfield⟩ := h
    obtain ⟨rest, rfl⟩ := List.head?_eq_some_iff.1 hhead
    have hnone : Operation.ofArithmeticField? (AddressingByte.ofByte second).register = none :=
      (Operation.ofArithmeticField?_eq_none_iff _).2 hfield
    have hbyte : AddressingByte.reader.run (second :: rest) =
      .ok (AddressingByte.ofByte second, rest) := rfl
    rw [reader, run_bind_of_ok hbyte, hnone]
    rfl
  | _ => exact h.elim

theorem mem_all (form : Form) : form ∈ all := by
  cases form <;> decide

/-- No byte has the fixed bits of two forms. -/
theorem filter_accepts (byte : UInt8) : all.filter (·.accepts byte) = (ofByte? byte).toList := by
  revert byte
  exact forall_byte (by decide +kernel)

theorem accepts_iff (form : Form) (byte : UInt8) :
    form.accepts byte = true ↔ ofByte? byte = some form := by
  have hmem : form ∈ all.filter (·.accepts byte) ↔ ofByte? byte = some form := by
    rw [filter_accepts, Option.mem_toList]
  rw [← hmem, List.mem_filter]
  exact (and_iff_right form.mem_all).symm

theorem ofByte?_eq_none_iff (byte : UInt8) :
    ofByte? byte = none ↔ ∀ form : Form, form.accepts byte = false := by
  simp only [← Bool.not_eq_true, accepts_iff]
  exact Option.eq_none_iff_forall_not_mem

end Form

/-! ## Sizes of instructions -/

theorem AddressingByte.sum_displacementSizes_le (a : AddressingByte) :
    a.displacementSizes.sum ≤ 2 := by
  obtain ⟨mode, register, rm⟩ := a
  match mode with
  | 3 => exact Nat.zero_le 2
  | 2 => exact Nat.le_refl 2
  | 1 => exact Nat.le_succ 1
  | 0 => by_cases hrm : rm = 6 <;> simp [displacementSizes, hrm]

theorem Width.byteCount_bounds (w : Width) : 1 ≤ w.byteCount ∧ w.byteCount ≤ 2 := by
  cases w <;> decide

theorem shortByteCount_bounds (s : Bool) (w : Width) :
    1 ≤ shortByteCount s w ∧ shortByteCount s w ≤ 2 := by
  cases s with
  | false => exact w.byteCount_bounds
  | true => exact ⟨Nat.le_refl 1, Nat.le_succ 1⟩

theorem Form.size_bounds (opcode second : UInt8) (form : Form) :
    2 ≤ form.size opcode second ∧ form.size opcode second ≤ 6 := by
  have hdisplacement := (AddressingByte.ofByte second).sum_displacementSizes_le
  have himmediate := (Width.ofBit (bitOf opcode 0)).byteCount_bounds
  have hregister := (Width.ofBit (bitOf opcode 3)).byteCount_bounds
  have hshort := shortByteCount_bounds (bitOf opcode 1) (.ofBit (bitOf opcode 0))
  cases form <;>
    simp only [size, fieldSizes, List.sum_cons, List.sum_append, List.sum_nil] <;> omega

end Machine8086
