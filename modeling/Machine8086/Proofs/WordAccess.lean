import Machine8086.Proofs.Meaning

/-!
# Words in memory

A word takes up two cells, the byte at its address and the byte after it; at the top of memory the
one after it is the byte at address 0. So a word is read as two bytes (`toNat_readWord`) and written
as two, and what a word write does to another word is said by their cells: the same cells
(`readWord_writeWord_self`), one cell in common (`toNat_readWord_next`, `toNat_readWord_previous`),
or none (`writeWord_comm`). Which of these it is depends on the distance of the addresses alone
(`disjoint_cells_iff`). `words_are_pairs_of_bytes` puts this together.
-/

namespace Machine8086

namespace Memory

/-! ## The cells of a word -/

/-- An address is a cell of a word exactly if its distance from the first one is below two. -/
theorem mem_cells_iff_distance (address other : UInt16) :
    other ∈ cells .word address ↔ (other - address).toNat < 2 := by
  have haddress := address.toNat_lt
  have hother := other.toNat_lt
  rw [mem_cells_word, ← UInt16.toNat_inj, ← UInt16.toNat_inj, UInt16.toNat_add, UInt16.toNat_one,
    UInt16.toNat_sub]
  omega

/-- Two words share no cell exactly if their addresses are neither the same nor next to each other,
where the last address and address 0 are next to each other. -/
theorem disjoint_cells_iff (address other : UInt16) :
    (cells .word address).Disjoint (cells .word other) ↔
      other - address ≠ 0 ∧ other - address ≠ 1 ∧ other - address ≠ 65535 := by
  have haddress := address.toNat_lt
  have hother := other.toNat_lt
  simp only [cells, List.disjoint_cons_left, List.disjoint_nil_left, List.mem_cons,
    List.not_mem_nil, or_false, and_true, ne_eq, ← UInt16.toNat_inj, UInt16.toNat_add,
    UInt16.toNat_sub, UInt16.reduceToNat]
  omega

/-! ## Two bytes as a word -/

/-- A word is read as two bytes, the low one first. -/
theorem toNat_readWord (m : Memory) (address : UInt16) :
    (m.readWord address).toNat =
      (m.read address).toNat + 256 * (m.read (address + 1)).toNat :=
  m.toNat_readWide .word address

/-- Two bytes pulled one after the other are the word pulled at once. -/
theorem pullWord_eq (m : Memory) (cursor : UInt16) :
    let low := m.pullByte cursor
    let high := m.pullByte low.2
    (m.pullWord cursor).1.toNat = low.1.toNat + 256 * high.1.toNat ∧
      (m.pullWord cursor).2 = high.2 :=
  ⟨m.toNat_readWord cursor, (UInt16.add_assoc cursor 1 1).symm⟩

/-! ## Writing and reading a word -/

section

variable (m : Memory) (address value : UInt16)

theorem readWord_writeWord_self : (m.writeWord address value).readWord address = value := by
  rw [← UInt16.toNat_inj, toNat_readWord]
  exact m.valueAt_writeWord address value

theorem read_writeWord_of_not_mem {other : UInt16} (h : other ∉ cells .word address) :
    (m.writeWord address value).read other = m.read other := by
  rw [mem_cells_word, not_or] at h
  rw [read_writeWord, if_neg h.2, if_neg h.1]

theorem toNat_read_writeWord_low :
    ((m.writeWord address value).read address).toNat = value.toNat % 256 := by
  rw [read_writeWord, if_neg (ne_add_one address), if_pos rfl, UInt16.toNat_toUInt8]

theorem toNat_read_writeWord_high :
    ((m.writeWord address value).read (address + 1)).toNat = value.toNat / 256 := by
  have hvalue := value.toNat_lt
  rw [read_writeWord, if_pos rfl, UInt16.toNat_toUInt8, toNat_shiftRight_eight]
  omega

/-- Writing back what is read changes nothing. -/
theorem writeWord_readWord : m.writeWord address (m.readWord address) = m := by
  apply @eq_of_valueAt_eq _ _ .word address
  · rw [valueAt_writeWord, toNat_readWord]
    rfl
  · intro other hother
    exact m.read_writeWord_of_not_mem address _ hother

/-- The word one byte up has the high byte of the written word as its low byte. -/
theorem toNat_readWord_next :
    ((m.writeWord address value).readWord (address + 1)).toNat =
      value.toNat / 256 + 256 * (m.read (address + 2)).toNat := by
  have hsecond : address + 1 + 1 = address + 2 := UInt16.add_assoc address 1 1
  have hbeyond : address + 2 ∉ cells .word address := by
    rw [mem_cells_iff_distance, UInt16.add_comm, UInt16.add_sub_cancel]
    decide
  rw [toNat_readWord, toNat_read_writeWord_high, hsecond, m.read_writeWord_of_not_mem _ _ hbeyond]

/-- The word one byte down has the low byte of the written word as its high byte. -/
theorem toNat_readWord_previous :
    ((m.writeWord address value).readWord (address - 1)).toNat =
      (m.read (address - 1)).toNat + 256 * (value.toNat % 256) := by
  have hsecond : address - 1 + 1 = address := UInt16.sub_add_cancel address 1
  have hbefore : address - 1 ∉ cells .word address := by
    have haddress := address.toNat_lt
    rw [mem_cells_iff_distance, UInt16.toNat_sub, UInt16.toNat_sub, UInt16.toNat_one]
    omega
  rw [toNat_readWord, hsecond, toNat_read_writeWord_low, m.read_writeWord_of_not_mem _ _ hbefore]

end

/-! ## Words that share no byte -/

/-- Writes of words that share no byte commute. -/
theorem writeWord_comm (m : Memory) {address other : UInt16}
    (h : (cells .word address).Disjoint (cells .word other)) (u v : UInt16) :
    (m.writeWord address u).writeWord other v = (m.writeWord other v).writeWord address u := by
  -- a word is written as a run of its two bytes
  have hbytes : ∀ (m : Memory) (address value : UInt16), m.writeWord address value =
      m.writeBytes address [value.toUInt8, (value >>> 8).toUInt8] := fun _ _ _ => rfl
  rw [hbytes, hbytes, hbytes, hbytes]
  have hlength : 2 ≤ addressSpace := by decide
  refine m.writeBytes_comm hlength hlength fun a => ?_
  by_cases ha : a ∈ cells .word address
  · exact .inr (Nat.not_lt.1 (mt (mem_cells_iff_distance other a).2 (h ha)))
  · exact .inl (Nat.not_lt.1 (mt (mem_cells_iff_distance address a).2 ha))

end Memory

/-! ## The conclusion -/

/-- A word in memory is the byte at its address and the byte after it, which wraps at the top of
memory, low byte first. A written word is read back and leaves all other bytes; the words one byte
up and one byte down from it have one of its bytes and one old byte. Writing back what is read
changes nothing, and writes of words whose addresses are neither the same nor next to each other
commute. Pulling a word at a cursor gives the two bytes that are pulled one after the other, and
leaves the same cursor. -/
theorem words_are_pairs_of_bytes (m : Memory) :
    (∀ address, (m.readWord address).toNat =
      (m.read address).toNat + 256 * (m.read (address + 1)).toNat) ∧
    (∀ address value,
      let after := m.writeWord address value
      after.readWord address = value ∧
      (∀ other, other ≠ address → other ≠ address + 1 → after.read other = m.read other) ∧
      (after.readWord (address + 1)).toNat =
        value.toNat / 256 + 256 * (m.read (address + 2)).toNat ∧
      (after.readWord (address - 1)).toNat =
        (m.read (address - 1)).toNat + 256 * (value.toNat % 256)) ∧
    (∀ address, m.writeWord address (m.readWord address) = m) ∧
    (∀ address other u v : UInt16,
      other - address ≠ 0 → other - address ≠ 1 → other - address ≠ 65535 →
        (m.writeWord address u).writeWord other v = (m.writeWord other v).writeWord address u) ∧
    ∀ cursor,
      let low := m.pullByte cursor
      let high := m.pullByte low.2
      (m.pullWord cursor).1.toNat = low.1.toNat + 256 * high.1.toNat ∧
        (m.pullWord cursor).2 = high.2 := by
  refine ⟨m.toNat_readWord, ?_, m.writeWord_readWord, ?_, m.pullWord_eq⟩
  · intro address value after
    refine ⟨m.readWord_writeWord_self address value, ?_, m.toNat_readWord_next address value,
      m.toNat_readWord_previous address value⟩
    intro other hlow hhigh
    exact m.read_writeWord_of_not_mem address value
      fun hmem => (mem_cells_word.1 hmem).elim hlow hhigh
  · intro address other u v hsame hnext hprevious
    exact m.writeWord_comm ((Memory.disjoint_cells_iff ..).2 ⟨hsame, hnext, hprevious⟩) u v

/-- A word written at the last address has its high byte at address 0. The byte at address 1 stays,
a word written there does not touch the first one, and the neighbouring words have one byte of
it. -/
theorem words_are_pairs_of_bytes_top :
    let after := Memory.zero.writeWord 0xFFFF 0xABCD
    after.readWord 0xFFFF = 0xABCD ∧ after.read 1 = 0 ∧ (after.readWord 0).toNat = 0xAB ∧
      (after.readWord 0xFFFE).toNat = 0xCD00 ∧
      after.writeWord 1 0x1234 = (Memory.zero.writeWord 1 0x1234).writeWord 0xFFFF 0xABCD ∧
      (after.pullWord 0xFFFF).2 = 1 := by
  intro after
  obtain ⟨-, hwrite, -, hcomm, -⟩ := words_are_pairs_of_bytes Memory.zero
  obtain ⟨-, -, -, -, hpull⟩ := words_are_pairs_of_bytes after
  obtain ⟨hself, hother, hnext, hprevious⟩ := hwrite 0xFFFF 0xABCD
  refine ⟨hself, ?_, ?_, ?_, ?_, (hpull 0xFFFF).2⟩
  · exact (hother 1 (by decide) (by decide)).trans (Memory.read_zero 1)
  · rw [Memory.read_zero] at hnext
    exact hnext
  · rw [Memory.read_zero] at hprevious
    exact hprevious
  · exact hcomm 0xFFFF 1 0xABCD 0x1234 (by decide) (by decide) (by decide)

end Machine8086
