import Machine8086.Proofs.Checked.Decode

/-!
# Decoding with fewer bytes and with more

What moving the end of the bytes does to decoding. An instruction, or a first byte without one, is
the result for every later end, since neither depends on bytes behind it (`decode_of_settled`). An
instruction that the end cuts lacks bytes, and no more than it has (`decode_of_cut`). As long as the
field that does not fit is not complete, each further byte is one byte less that is missing
(`decode_of_missingBytes`); in particular the bytes that become visible meanwhile do not turn the
instruction into one that is not decoded, as the addressing byte is a field of one byte
(`not_unsupported_of_shortage`). For the same reason these results are the same in every memory that
agrees on the bytes they come from (`decode_of_agreeFrom`, `decode_unknownOpcode_of_agreeFrom`).
-/

namespace Machine8086

namespace ByteReader

/-! ## Fields that do not fit -/

variable {sizes : List Nat} {available needed : Nat}

theorem shortage_pos (h : shortage sizes available = some needed) : 0 < needed := by
  induction sizes generalizing available with
  | nil => cases h
  | cons size sizes ih =>
    rw [shortage] at h
    split at h
    case isTrue hshort =>
      cases h
      omega
    case isFalse hfits => exact ih h

/-- What is missing is missing of one field. -/
theorem exists_size_of_shortage (h : shortage sizes available = some needed) :
    ∃ size ∈ sizes, needed ≤ size := by
  induction sizes generalizing available with
  | nil => cases h
  | cons size sizes ih =>
    rw [shortage] at h
    split at h
    case isTrue hshort =>
      cases h
      exact ⟨size, List.mem_cons_self, Nat.sub_le size available⟩
    case isFalse hfits =>
      obtain ⟨other, hmem, hle⟩ := ih h
      exact ⟨other, List.mem_cons_of_mem size hmem, hle⟩

/-- The field that does not fit ends before the fields do. -/
theorem add_le_sum_of_shortage (h : shortage sizes available = some needed) :
    available + needed ≤ sizes.sum := by
  induction sizes generalizing available with
  | nil => cases h
  | cons size sizes ih =>
    rw [shortage] at h
    rw [List.sum_cons]
    split at h
    case isTrue hshort =>
      cases h
      omega
    case isFalse hfits =>
      have hrest := ih h
      omega

/-- More bytes, but fewer than are missing, are missing no more. -/
theorem shortage_add (h : shortage sizes available = some needed) {more : Nat}
    (hmore : more < needed) : shortage sizes (available + more) = some (needed - more) := by
  induction sizes generalizing available with
  | nil => cases h
  | cons size sizes ih =>
    rw [shortage] at h ⊢
    split at h
    case isTrue hshort =>
      cases h
      rw [if_pos (by omega), Nat.sub_add_eq]
    case isFalse hfits =>
      have hfits' : ¬ available + more < size := by omega
      rw [if_neg hfits', Nat.sub_add_comm (Nat.not_lt.1 hfits)]
      exact ih h

end ByteReader

open ByteReader

theorem AddressingByte.displacementSizes_le_two (a : AddressingByte) :
    ∀ size ∈ a.displacementSizes, size ≤ 2 := fun _ hsize =>
  Nat.le_trans (List.le_sum_of_mem hsize) a.sum_displacementSizes_le

/-- No field has more than two bytes. -/
theorem Form.fieldSizes_le_two {opcode second : UInt8} {form : Form} {size : Nat}
    (h : size ∈ form.fieldSizes opcode second) : size ≤ 2 := by
  have hdisplacement := (AddressingByte.ofByte second).displacementSizes_le_two size
  have himmediate := (Width.ofBit (bitOf opcode 0)).byteCount_bounds.2
  have hregister := (Width.ofBit (bitOf opcode 3)).byteCount_bounds.2
  have hshort := (shortByteCount_bounds (bitOf opcode 1) (.ofBit (bitOf opcode 0))).2
  cases form <;>
    simp only [fieldSizes, List.mem_cons, List.mem_append, List.not_mem_nil, or_false] at h <;>
    grind

theorem Form.eq_of_accepts {opcode : UInt8} {form other : Form} (h : form.accepts opcode = true)
    (h' : other.accepts opcode = true) : form = other := by
  rw [accepts_iff] at h h'
  exact Option.some.inj (h.symm.trans h')

/-! ## Further bytes -/

/-- A byte that lies before an end lies before every later one. -/
theorem Memory.second?_mono {m : Memory} {cursor : UInt16} {final final' : Nat} {byte : UInt8}
    (h : m.second? cursor final = some byte) (hle : final ≤ final') :
    m.second? cursor final' = some byte := by
  rw [second?] at h ⊢
  split at h
  case isTrue hfits => rw [if_pos (Nat.le_trans hfits hle), ← h]
  case isFalse hshort => cases h

/-- Further bytes do not make an instruction of what is none. -/
theorem Unsupported.mono {m : Memory} {cursor : UInt16} {opcode : UInt8} {final final' : Nat}
    (h : Unsupported opcode (m.second? cursor final)) (hle : final ≤ final') :
    Unsupported opcode (m.second? cursor final') := by
  cases h with
  | noForm h => exact .noForm h
  | inOpcode hform hfield => exact .inOpcode hform hfield
  | inSecond hform hsecond hfield => exact .inSecond hform (Memory.second?_mono hsecond hle) hfield

/-- Nor, while they do not complete a field, do they make an instruction unsupported. -/
theorem not_unsupported_of_shortage {m : Memory} {cursor : UInt16} {final needed more : Nat}
    {form : Form} (hstart : cursor.toNat < final)
    (hform : form.accepts (m.read cursor) = true)
    (h : ¬ Unsupported (m.read cursor) (m.second? cursor final))
    (hshort : shortage (form.fieldSizes (m.read cursor) (m.read (cursor + 1)))
      (final - cursor.toNat - 1) = some needed) (hmore : more < needed) :
    ¬ Unsupported (m.read cursor) (m.second? cursor (final + more)) := by
  rw [unsupported_iff_of_form hform] at h ⊢
  cases form with
  | arithmeticImmediate =>
    rintro ⟨second, hsecond, hfield⟩
    by_cases hthere : cursor.toNat + 2 ≤ final
    · -- the addressing byte was there before, and has not been refused
      refine h ⟨second, ?_, hfield⟩
      rw [Option.mem_def, Memory.second?, if_pos hthere,
        Memory.eq_of_second?_eq_some (Option.mem_def.1 hsecond)]
    · -- the addressing byte is what is missing, so it is still missing
      have hnone : final - cursor.toNat - 1 = 0 := by omega
      rw [hnone, Form.fieldSizes, shortage, if_pos Nat.zero_lt_one] at hshort
      cases hshort
      rw [Nat.lt_one_iff.1 hmore, Nat.add_zero, Memory.second?, if_neg hthere] at hsecond
      cases hsecond
  | movRegister | movImmediateToRegister | movImmediate | movAccumulator => exact id
  | arithmeticRegister | arithmeticAccumulator => exact h
  | conditionalJump | loopJump => exact id

/-! ## The end of the bytes -/

/-- Results of decoding that no further byte changes: an instruction, or none. -/
inductive Settled : Except DecodeError Decoded → Prop
  | ok (d : Decoded) : Settled (.ok d)
  | unknownOpcode (opcode : UInt8) (address : UInt16) :
      Settled (.error (.unknownOpcode opcode address))

section

variable {m : Memory} {cursor : UInt16} {stop stop' : Nat}

theorem decode_of_settled (hstop : stop ≤ stop') (h : Settled (decode m cursor stop)) :
    decode m cursor stop' = decode m cursor stop := by
  have houtcome := decode_outcome m cursor stop'
  cases hdecode : decode m cursor stop with
  | ok d => exact decode_mono hdecode (Nat.le_trans (Nat.min_le_left ..) hstop)
  | error e =>
    rw [hdecode] at h
    cases h with
    | unknownOpcode opcode address =>
      -- nothing has to be there for this but the bytes that were looked at
      obtain ⟨hstart, hunsupported, rfl, rfl⟩ :=
        ((decode_outcome m cursor stop).unknownOpcode_iff ..).1 hdecode
      have hle : min stop addressSpace ≤ min stop' addressSpace := by omega
      exact (houtcome.unknownOpcode_iff ..).2
        ⟨Nat.lt_of_lt_of_le hstart hle, hunsupported.mono hle, rfl, rfl⟩

/-- What is missing, and of what. -/
theorem decode_eq_missingBytes_iff (hstart : cursor.toNat < stop) (hspace : stop ≤ addressSpace)
    {needed : Nat} :
    decode m cursor stop = .error (.missingBytes cursor needed) ↔
      ¬ Unsupported (m.read cursor) (m.second? cursor stop) ∧
        ∃ form : Form, form.accepts (m.read cursor) = true ∧
          shortage (form.fieldSizes (m.read cursor) (m.read (cursor + 1)))
            (stop - cursor.toNat - 1) = some needed := by
  have houtcome := decode_outcome m cursor stop
  rw [Nat.min_eq_left hspace] at houtcome
  constructor
  · intro h
    rw [h] at houtcome
    cases houtcome with
    | missingBytes _ hsupported hform hshort => exact ⟨hsupported, _, hform, hshort⟩
  -- any other outcome contradicts that a supported instruction does not fit
  · rintro ⟨hsupported, form, hform, hshort⟩
    generalize decode m cursor stop = result at houtcome
    cases houtcome with
    | endOfStream hend => exact absurd hend (Nat.not_le.2 hstart)
    | unknownOpcode _ hunsupported => exact absurd hunsupported hsupported
    | missingBytes _ _ hform' hshort' =>
      cases Form.eq_of_accepts hform hform'
      cases hshort.symm.trans hshort'
      rfl
    | ok _ _ hform' hfits =>
      cases Form.eq_of_accepts hform hform'
      have hlong := lt_sum_of_shortage hshort
      rw [Form.size] at hfits
      omega

/-- An instruction that the end cuts lacks bytes of one field. -/
theorem decode_of_cut (hstart : cursor.toNat < stop) (hstop : stop ≤ stop')
    (hspace : stop' ≤ addressSpace) {d : Decoded} (h : decode m cursor stop' = .ok d)
    (hcut : stop < cursor.toNat + d.size) :
    ∃ needed, decode m cursor stop = .error (.missingBytes cursor needed) ∧
      (needed = 1 ∨ needed = 2) ∧ stop + needed ≤ cursor.toNat + d.size := by
  have houtcome := decode_outcome m cursor stop'
  rw [h, Nat.min_eq_left hspace] at houtcome
  cases houtcome with
  | @ok form i _ hsupported hform _ =>
    dsimp only at hcut ⊢
    have hsupported' : ¬ Unsupported (m.read cursor) (m.second? cursor stop) :=
      fun hunsupported => hsupported (hunsupported.mono hstop)
    rw [Form.size] at hcut ⊢
    -- the fields are longer than what is left before the end
    have hshort : shortage (form.fieldSizes (m.read cursor) (m.read (cursor + 1)))
        (stop - cursor.toNat - 1) ≠ none := by
      rw [Ne, shortage_eq_none_iff]
      omega
    obtain ⟨needed, hneeded⟩ := Option.ne_none_iff_exists'.1 hshort
    obtain ⟨size, hsize, hle⟩ := exists_size_of_shortage hneeded
    have htwo := Form.fieldSizes_le_two hsize
    have hpos := shortage_pos hneeded
    have hsum := add_le_sum_of_shortage hneeded
    exact ⟨needed,
      (decode_eq_missingBytes_iff hstart (Nat.le_trans hstop hspace)).2
        ⟨hsupported', form, hform, hneeded⟩, by omega, by omega⟩

/-- As long as the field that does not fit is not complete, a byte more is a byte less missing. -/
theorem decode_of_missingBytes (hstart : cursor.toNat < stop) {needed more : Nat}
    (h : decode m cursor stop = .error (.missingBytes cursor needed)) (hmore : more < needed)
    (hspace : stop + more ≤ addressSpace) :
    decode m cursor (stop + more) = .error (.missingBytes cursor (needed - more)) := by
  obtain ⟨hsupported, form, hform, hshort⟩ :=
    (decode_eq_missingBytes_iff hstart (Nat.le_trans (Nat.le_add_right ..) hspace)).1 h
  refine (decode_eq_missingBytes_iff (Nat.lt_add_right more hstart) hspace).2
    ⟨not_unsupported_of_shortage hstart hform hsupported hshort hmore, form, hform, ?_⟩
  have havailable : stop + more - cursor.toNat - 1 = stop - cursor.toNat - 1 + more := by omega
  rw [havailable]
  exact shortage_add hshort hmore

end

/-! ## The bytes that matter -/

/-- The memories hold the same bytes at so many addresses, from one on; these do not wrap. -/
def Memory.AgreeFrom (m n : Memory) (address : UInt16) (count : Nat) : Prop :=
  ∀ a : UInt16, address.toNat ≤ a.toNat → a.toNat < address.toNat + count → m.read a = n.read a

section

variable {m n : Memory} {cursor : UInt16} {stop : Nat}

theorem Memory.AgreeFrom.readBytes_eq {count : Nat} (h : m.AgreeFrom n cursor count)
    (hspace : cursor.toNat + count ≤ addressSpace) :
    m.readBytes cursor count = n.readBytes cursor count := by
  have htop : addressSpace = 65536 := rfl
  refine readBytes_congr fun i hi => ?_
  have htoNat : (cursor + UInt16.ofNat i).toNat = cursor.toNat + i := by
    rw [UInt16.toNat_add, UInt16.toNat_ofNat']
    omega
  exact h _ (by omega) (by omega)

/-- A decoded instruction depends on its own bytes only. -/
theorem decode_of_agreeFrom {d : Decoded} (h : decode m cursor stop = .ok d)
    (hagree : m.AgreeFrom n cursor d.size) : decode n cursor stop = .ok d := by
  rw [decode_eq_ok_iff] at h ⊢
  obtain ⟨haddress, hend, hencodes⟩ := h
  -- the bytes are all that the memory contributes to being the encoding of an instruction
  have hspace := Nat.le_trans hend (Nat.min_le_right ..)
  rw [hagree.readBytes_eq hspace] at hencodes
  exact ⟨haddress, hend, hencodes⟩

theorem Memory.AgreeFrom.second?_eq (hspace : stop ≤ addressSpace)
    (h : m.AgreeFrom n cursor (min 2 (stop - cursor.toNat))) :
    m.second? cursor stop = n.second? cursor stop := by
  have htop : addressSpace = 65536 := rfl
  rw [second?, second?]
  split
  case isTrue hsecond =>
    have htoNat : (cursor + 1).toNat = cursor.toNat + 1 := by
      rw [UInt16.toNat_add, UInt16.toNat_one]
      omega
    rw [h (cursor + 1) (by omega) (by omega)]
  case isFalse hnone => rfl

/-- That there is no instruction depends on the first two bytes only, as far as they are there. -/
theorem decode_unknownOpcode_of_agreeFrom {opcode : UInt8} {address : UInt16}
    (hspace : stop ≤ addressSpace)
    (h : decode m cursor stop = .error (.unknownOpcode opcode address))
    (hagree : m.AgreeFrom n cursor (min 2 (stop - cursor.toNat))) :
    decode n cursor stop = .error (.unknownOpcode opcode address) := by
  have houtcome := decode_outcome m cursor stop
  have houtcome' := decode_outcome n cursor stop
  rw [Nat.min_eq_left hspace] at houtcome houtcome'
  obtain ⟨hstart, hunsupported, hopcode, haddress⟩ := (houtcome.unknownOpcode_iff ..).1 h
  have hread : m.read cursor = n.read cursor := hagree cursor (Nat.le_refl _) (by omega)
  rw [hread, hagree.second?_eq hspace] at hunsupported
  exact (houtcome'.unknownOpcode_iff ..).2
    ⟨hstart, hunsupported, hopcode.trans hread, haddress⟩

end

/-- Cutting and extending the bytes from which an instruction is decoded. An instruction, or a first
byte without one, is the result for every later end, and the cursor is left at the same place. An
instruction that is cut lacks one or two bytes, and no more than are cut off. While fewer bytes are
added than are missing, so many fewer are missing. An instruction depends on its own bytes, and that
there is none on the first two before the end. -/
theorem decode_truncation_consistent (m : Memory) (cursor : UInt16) {stop stop' : Nat}
    (hstart : cursor.toNat < stop) (hstop : stop ≤ stop') (hspace : stop' ≤ addressSpace) :
    (Settled (decode m cursor stop) →
        decode m cursor stop' = decode m cursor stop ∧
          (Checked.decode m stop').exec cursor = (Checked.decode m stop).exec cursor) ∧
      (∀ d, decode m cursor stop' = .ok d → stop < cursor.toNat + d.size →
        ∃ needed, decode m cursor stop = .error (.missingBytes cursor needed) ∧
          (needed = 1 ∨ needed = 2) ∧ stop + needed ≤ cursor.toNat + d.size) ∧
      (∀ needed, decode m cursor stop = .error (.missingBytes cursor needed) →
        ∀ k < needed, stop + k ≤ addressSpace →
          decode m cursor (stop + k) = .error (.missingBytes cursor (needed - k))) ∧
      (∀ n d, decode m cursor stop = .ok d → m.AgreeFrom n cursor d.size →
        decode n cursor stop = .ok d ∧
          (Checked.decode n stop).exec cursor = (Checked.decode m stop).exec cursor) ∧
      ∀ n opcode address, decode m cursor stop = .error (.unknownOpcode opcode address) →
        m.AgreeFrom n cursor (min 2 (stop - cursor.toNat)) →
        decode n cursor stop = .error (.unknownOpcode opcode address) ∧
          (Checked.decode n stop).exec cursor = (Checked.decode m stop).exec cursor := by
  refine ⟨?_, ?_, ?_, ?_, ?_⟩
  · intro hsettled
    have hdecode := decode_of_settled hstop hsettled
    rw [Checked.decode_eq, Checked.decode_eq, hdecode]
    exact ⟨rfl, rfl⟩
  · intro d hdecode hcut
    exact decode_of_cut hstart hstop hspace hdecode hcut
  · intro needed hmissing k hk hend
    exact decode_of_missingBytes hstart hmissing hk hend
  · intro n d hdecode hagree
    have hdecode' := decode_of_agreeFrom hdecode hagree
    rw [Checked.decode_eq, Checked.decode_eq, hdecode, hdecode']
    exact ⟨rfl, rfl⟩
  · intro n opcode address hunknown hagree
    have hunknown' := decode_unknownOpcode_of_agreeFrom (Nat.le_trans hstop hspace) hunknown hagree
    rw [Checked.decode_eq, Checked.decode_eq, hunknown, hunknown']
    exact ⟨rfl, rfl⟩

/-- An addition of a word to a word in memory: six bytes, of which displacement and immediate are
two each. Two bytes are missing behind the second one, and one behind the third. The byte behind the
instruction is of no account. -/
theorem decode_truncation_consistent_add :
    let m := Memory.zero.writeBytes 0 [0x81, 0x87, 0x34, 0x12, 0x78, 0x56]
    let d : Decoded :=
      ⟨0, 6, .pair .add (.memory (.based .bx 0x1234)) (.immediate (.ofWord 0x5678))⟩
    decode m 0 6 = .ok d ∧ decode m 0 7 = .ok d ∧
      (∃ needed, decode m 0 5 = .error (.missingBytes 0 needed) ∧ 5 + needed ≤ 6) ∧
      decode m 0 2 = .error (.missingBytes 0 2) ∧ decode m 0 3 = .error (.missingBytes 0 1) ∧
      decode (m.write 6 0xFF) 0 6 = .ok d := by
  intro m d
  have hok : decode m 0 6 = .ok d := by decide
  have hmissing : decode m 0 2 = .error (.missingBytes 0 2) := by decide
  obtain ⟨hextend, -, -, hagree, -⟩ :=
    @decode_truncation_consistent m 0 6 7 (by decide) (by decide) (by decide)
  have hsettled : Settled (decode m 0 6) := hok ▸ .ok d
  have hwrite : m.AgreeFrom (m.write 6 0xFF) 0 6 := by
    intro a _ ha
    refine (m.read_write_of_ne 0xFF fun hsix => ?_).symm
    rw [hsix] at ha
    exact absurd ha (by decide)
  refine ⟨hok, (hextend hsettled).1.trans hok, ?_, hmissing, ?_, (hagree _ d hok hwrite).1⟩
  · obtain ⟨needed, herror, -, hend⟩ :=
      (@decode_truncation_consistent m 0 5 6 (by decide) (by decide) (by decide)).2.1
        d hok (by decide)
    exact ⟨needed, herror, hend⟩
  · exact (@decode_truncation_consistent m 0 2 6 (by decide) (by decide) (by decide)).2.2.1
      2 hmissing 1 (by decide) (by decide)

end Machine8086
