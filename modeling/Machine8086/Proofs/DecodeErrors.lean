import Machine8086.Proofs.FieldSizes

/-!
# Why decoding fails

Decoding fails for one of three reasons: nothing is left before the end, the first two bytes belong
to no instruction that is decoded (`Unsupported`), or the end lies inside the instruction
(`Form.Truncated`). Each outcome has its condition on the first two bytes and the number of bytes
left (`decode_outcome`), and these conditions exclude each other, so that each error has a condition
that it occurs under and under no other (`DecodeOutcome.endOfStream_iff`,
`DecodeOutcome.unknownOpcode_iff`, `DecodeOutcome.missingBytes_iff`).
-/

namespace Machine8086

open ByteReader

/-! ## Unsupported instructions -/

/-- The first byte, and the second if it is there, belong to no instruction that is decoded. -/
inductive Unsupported (opcode : UInt8) (second? : Option UInt8) : Prop
  /-- The first byte has the fixed bits of no form. -/
  | noForm (h : ∀ form : Form, form.accepts opcode = false)
  /-- The first byte asks for an operation that is not decoded. -/
  | inOpcode (hform : Form.arithmeticRegister.accepts opcode = true ∨
        Form.arithmeticAccumulator.accepts opcode = true)
      (hfield : fieldOf opcode 3 ∉ Operation.arithmeticFields)
  /-- The second byte, which is there, asks for one. -/
  | inSecond {second : UInt8} (hform : Form.arithmeticImmediate.accepts opcode = true)
      (hsecond : second? = some second) (hfield : fieldOf second 3 ∉ Operation.arithmeticFields)

theorem unsupported_iff {opcode : UInt8} {second? : Option UInt8} :
    Unsupported opcode second? ↔
      ∀ form, Form.ofByte? opcode = some form → form.Refuses opcode second? := by
  constructor
  · rintro (h | ⟨hform | hform, hfield⟩ | ⟨hform, hsecond, hfield⟩) form hselected
    · cases ((Form.ofByte?_eq_none_iff opcode).2 h).symm.trans hselected
    all_goals
      rw [Form.accepts_iff] at hform
      cases hform.symm.trans hselected
    · exact hfield
    · exact hfield
    · exact ⟨_, hsecond, hfield⟩
  · intro h
    cases hselected : Form.ofByte? opcode with
    | none => exact .noForm ((Form.ofByte?_eq_none_iff opcode).1 hselected)
    | some form =>
      have hrefuses := h form hselected
      rw [← Form.accepts_iff] at hselected
      cases form with
      | arithmeticRegister => exact .inOpcode (.inl hselected) hrefuses
      | arithmeticAccumulator => exact .inOpcode (.inr hselected) hrefuses
      | arithmeticImmediate =>
        obtain ⟨second, hsecond, hfield⟩ := hrefuses
        exact .inSecond hselected hsecond hfield
      | _ => exact hrefuses.elim

/-- A first byte that has a form is unsupported exactly if its form refuses. -/
theorem unsupported_iff_of_form {opcode : UInt8} {second? : Option UInt8} {form : Form}
    (hform : form.accepts opcode = true) :
    Unsupported opcode second? ↔ form.Refuses opcode second? := by
  rw [Form.accepts_iff] at hform
  rw [unsupported_iff, hform]
  constructor
  · intro h
    exact h form rfl
  · rintro h selected hselected
    cases hselected
    exact h

theorem exists_form_of_not_unsupported {opcode : UInt8} {second? : Option UInt8}
    (h : ¬ Unsupported opcode second?) : ∃ form : Form, form.accepts opcode = true := by
  by_contra hnone
  refine h (.noForm fun form => ?_)
  rw [← Bool.not_eq_true]
  intro hform
  exact hnone ⟨form, hform⟩

theorem run_instructionReader_of_unsupported {opcode : UInt8} {bytes : List UInt8}
    (h : Unsupported opcode bytes.head?) :
    (instructionReader opcode).run bytes = .error .unknown := by
  rw [unsupported_iff] at h
  unfold instructionReader
  cases hform : Form.ofByte? opcode with
  | none => rfl
  | some form => exact Form.run_reader_of_refuses (h form hform)

theorem takes_instructionReader {opcode second : UInt8} {bytes : List UInt8} {form : Form}
    (hsecond : ∀ byte ∈ bytes.head?, byte = second) (hform : form.accepts opcode = true)
    (h : ¬ Unsupported opcode bytes.head?) :
    Takes (instructionReader opcode) bytes (form.fieldSizes opcode second) := by
  rw [unsupported_iff_of_form hform] at h
  rw [Form.accepts_iff] at hform
  rw [instructionReader, hform]
  exact Form.takes_reader hsecond h

/-! ## Outcomes of decoding -/

namespace Form

/-- Whether an addressing byte follows the first byte. -/
def hasAddressingByte : Form → Bool
  | movRegister | movImmediate | arithmeticRegister | arithmeticImmediate => true
  | movImmediateToRegister | movAccumulator | arithmeticAccumulator => false
  | conditionalJump | loopJump => false

/-- So many bytes are too few: the addressing byte is missing, or the length that the first two
bytes give exceeds them. -/
def Truncated (opcode second : UInt8) (form : Form) (available : Nat) : Prop :=
  form.hasAddressingByte = true ∧ available < 2 ∨ available < form.size opcode second

end Form

/-- The byte after the one at an address, if it lies before the end. -/
def Memory.second? (m : Memory) (address : UInt16) (final : Nat) : Option UInt8 :=
  if address.toNat + 2 ≤ final then some (m.read (address + 1)) else none

theorem Memory.eq_of_second?_eq_some {m : Memory} {address : UInt16} {final : Nat} {byte : UInt8}
    (h : m.second? address final = some byte) : byte = m.read (address + 1) := by
  rw [second?] at h
  split at h
  · exact (Option.some.inj h).symm
  · cases h

theorem Memory.head?_readBytes_second (m : Memory) (address : UInt16) (final : Nat) :
    (m.readBytes (address + 1) (min 5 (final - address.toNat - 1))).head? =
      m.second? address final := by
  rw [second?]
  split
  case isTrue hsecond =>
    obtain ⟨count, hcount⟩ : ∃ count, min 5 (final - address.toNat - 1) = count + 1 :=
      Nat.exists_eq_succ_of_ne_zero (by omega)
    rw [hcount]
    rfl
  case isFalse hnone =>
    have hcount : min 5 (final - address.toNat - 1) = 0 := by omega
    rw [hcount]
    rfl

/-- What decoding gives at an address, with `final` for the end, and when. -/
inductive DecodeOutcome (m : Memory) (address : UInt16) (final : Nat) :
    Except DecodeError Decoded → Prop
  | endOfStream (hend : final ≤ address.toNat) :
      DecodeOutcome m address final (.error .endOfStream)
  | unknownOpcode (hstart : address.toNat < final)
      (h : Unsupported (m.read address) (m.second? address final)) :
      DecodeOutcome m address final (.error (.unknownOpcode (m.read address) address))
  | missingBytes {form : Form} {needed : Nat} (hstart : address.toNat < final)
      (h : ¬ Unsupported (m.read address) (m.second? address final))
      (hform : form.accepts (m.read address) = true)
      (hshort : shortage (form.fieldSizes (m.read address) (m.read (address + 1)))
        (final - address.toNat - 1) = some needed) :
      DecodeOutcome m address final (.error (.missingBytes address needed))
  | ok {form : Form} {i : Instruction} (hstart : address.toNat < final)
      (h : ¬ Unsupported (m.read address) (m.second? address final))
      (hform : form.accepts (m.read address) = true)
      (hfits : address.toNat + form.size (m.read address) (m.read (address + 1)) ≤ final) :
      DecodeOutcome m address final
        (.ok ⟨address, form.size (m.read address) (m.read (address + 1)), i⟩)

/-- The bytes are unsupported, or too few, or an instruction; nothing is decoded at the end. -/
theorem decode_outcome (m : Memory) (address : UInt16) (stop : Nat) :
    DecodeOutcome m address (min stop addressSpace) (decode m address stop) := by
  rw [decode]
  dsimp only
  generalize hfinal : min stop addressSpace = final
  split
  case isTrue hend => exact .endOfStream (Nat.le_of_sub_eq_zero hend)
  case isFalse hstart =>
    have hstart : address.toNat < final := Nat.lt_of_sub_ne_zero hstart
    have hhead := m.head?_readBytes_second address final
    have hlength := m.length_readBytes (address + 1) (min 5 (final - address.toNat - 1))
    by_cases hunsupported : Unsupported (m.read address) (m.second? address final)
    · rw [run_instructionReader_of_unsupported (hhead ▸ hunsupported)]
      exact .unknownOpcode hstart hunsupported
    · obtain ⟨form, hform⟩ := exists_form_of_not_unsupported hunsupported
      have hsecond : ∀ byte ∈ m.second? address final, byte = m.read (address + 1) :=
        fun byte => Memory.eq_of_second?_eq_some
      have htakes := takes_instructionReader (hhead ▸ hsecond) hform (hhead ▸ hunsupported)
      have hsize := (form.size_bounds (m.read address) (m.read (address + 1))).2
      -- that the tail is cut at five bytes makes no difference
      have hlimit : shortage (form.fieldSizes (m.read address) (m.read (address + 1)))
          (min 5 (final - address.toNat - 1)) =
            shortage (form.fieldSizes (m.read address) (m.read (address + 1)))
              (final - address.toNat - 1) :=
        shortage_min (Nat.le_of_add_le_add_left hsize) _
      rw [← hlength] at hlimit
      cases hshort : shortage (form.fieldSizes (m.read address) (m.read (address + 1)))
        (final - address.toNat - 1) with
      | some needed =>
        rw [htakes.short needed (hlimit.trans hshort)]
        exact .missingBytes hstart hunsupported hform hshort
      | none =>
        obtain ⟨i, hrun⟩ := htakes.complete (hlimit.trans hshort)
        have hsum := shortage_eq_none_iff.1 (hlimit.trans hshort)
        have hfits := shortage_eq_none_iff.1 hshort
        rw [hrun]
        dsimp only
        rw [List.length_drop, Nat.sub_sub_self hsum]
        exact .ok hstart hunsupported hform (by rw [Form.size]; omega)

namespace DecodeOutcome

variable {m : Memory} {cursor : UInt16} {final : Nat} {result : Except DecodeError Decoded}

theorem endOfStream_iff (h : DecodeOutcome m cursor final result) :
    result = .error .endOfStream ↔ final ≤ cursor.toNat := by
  constructor
  · rintro rfl
    cases h with
    | endOfStream hend => exact hend
  · intro hend
    cases h with
    | endOfStream _ => rfl
    | unknownOpcode hstart h => exact absurd hend (Nat.not_le.2 hstart)
    | missingBytes hstart h hform hshort => exact absurd hend (Nat.not_le.2 hstart)
    | ok hstart h hform hfits => exact absurd hend (Nat.not_le.2 hstart)

theorem unknownOpcode_iff (h : DecodeOutcome m cursor final result) (byte : UInt8)
    (address : UInt16) :
    result = .error (.unknownOpcode byte address) ↔
      cursor.toNat < final ∧ Unsupported (m.read cursor) (m.second? cursor final) ∧
        byte = m.read cursor ∧ address = cursor := by
  constructor
  · rintro rfl
    cases h with
    | unknownOpcode hstart h => exact ⟨hstart, h, rfl, rfl⟩
  · rintro ⟨hstart, hunsupported, rfl, rfl⟩
    cases h with
    | endOfStream hend => exact absurd hend (Nat.not_le.2 hstart)
    | unknownOpcode hstart h => rfl
    | missingBytes hstart h hform hshort => exact absurd hunsupported h
    | ok hstart h hform hfits => exact absurd hunsupported h

theorem missingBytes_iff (h : DecodeOutcome m cursor final result) (address : UInt16) :
    (∃ needed, result = .error (.missingBytes address needed)) ↔
      cursor.toNat < final ∧ ¬ Unsupported (m.read cursor) (m.second? cursor final) ∧
        address = cursor ∧ ∃ form : Form, form.accepts (m.read cursor) = true ∧
          form.Truncated (m.read cursor) (m.read (cursor + 1)) (final - cursor.toNat) := by
  constructor
  · rintro ⟨needed, rfl⟩
    cases h with
    | missingBytes hstart h hform hshort =>
      have hlong := lt_sum_of_shortage hshort
      exact ⟨hstart, h, rfl, _, hform, .inr (by rw [Form.size]; omega)⟩
  · rintro ⟨hstart, hsupported, rfl, form, hform, htruncated⟩
    cases h with
    | endOfStream hend => exact absurd hend (Nat.not_le.2 hstart)
    | unknownOpcode hstart h => exact absurd h hsupported
    | missingBytes hstart h hform hshort => exact ⟨_, rfl⟩
    | @ok selected i hstart h hselected hfits =>
      -- a byte selects one form, and an instruction has no fewer than two bytes
      rw [Form.accepts_iff] at hform hselected
      cases hselected.symm.trans hform
      have hsize := (form.size_bounds (m.read address) (m.read (address + 1))).1
      rcases htruncated with ⟨-, htwo⟩ | hlong <;> omega

theorem size_of_ok {d : Decoded} (h : DecodeOutcome m cursor final (.ok d)) :
    ∃ form : Form, form.accepts (m.read cursor) = true ∧
      d.size = form.size (m.read cursor) (m.read (cursor + 1)) := by
  cases h with
  | ok hstart h hform hfits => exact ⟨_, hform, rfl⟩

end DecodeOutcome

theorem decode_size_bounds {m : Memory} {address : UInt16} {stop : Nat} {d : Decoded}
    (h : decode m address stop = .ok d) : 2 ≤ d.size ∧ d.size ≤ 6 := by
  have houtcome := decode_outcome m address stop
  rw [h] at houtcome
  obtain ⟨form, -, hsize⟩ := houtcome.size_of_ok
  rw [hsize]
  exact form.size_bounds (m.read address) (m.read (address + 1))

end Machine8086
