import Machine8086.Proofs.Checked.Execution

/-!
# Register writes

A write replaces the bits of one part in one word (`Part.replaced`, as a number) and leaves the
other seven words alone (`Cpu.toNat_read_whole_write`). So after any sequence of writes each word
is what the writes to registers in it have made of it, one after the other (`Register.wordAfter`),
and every register is read as its bits of that word (`Cpu.toNat_read_writeAll`). Writes to registers
that share no bit replace different parts or different words, and their order does not matter
(`Cpu.write_comm`). `registers_are_views` puts this together with what is read after one write.
-/

namespace Machine8086

namespace Part

/-- The number of a word with the bits of a part replaced by the lowest bits of a value: what lies
below the part stays, then come the new bits, and what lies above stays in its place. -/
def replaced (p : Part) (word value : Nat) : Nat :=
  word % 2 ^ p.place + 2 ^ p.place * (value % 2 ^ p.bits) +
    2 ^ (p.place + p.bits) * (word / 2 ^ (p.place + p.bits))

theorem toNat_put (p : Part) (word value : UInt16) :
    (p.put word value).toNat = p.replaced word.toNat value.toNat := by
  have hword := word.toNat_lt
  have hvalue := value.toNat_lt
  cases p with
  | low =>
    rw [put, toNat_withLowHalf, replaced, place, bits]
    omega
  | high =>
    rw [put, toNat_withHighHalf, replaced, place, bits]
    omega
  | whole =>
    rw [put, replaced, place, bits]
    omega

/-- Parts that lie side by side are replaced in any order. -/
theorem put_comm {p q : Part} (h : ¬ p.Overlaps q) (word u v : UInt16) :
    q.put (p.put word u) v = p.put (q.put word v) u := by
  have hword := word.toNat_lt
  rw [← UInt16.toNat_inj]
  cases p with
  | whole => cases q <;> exact absurd (by decide) h
  | low =>
    cases q with
    | low | whole => exact absurd (by decide) h
    | high =>
      rw [put, put, put, put, toNat_withHighHalf, toNat_withLowHalf, toNat_withLowHalf,
        toNat_withHighHalf]
      omega
  | high =>
    cases q with
    | high | whole => exact absurd (by decide) h
    | low =>
      rw [put, put, put, put, toNat_withLowHalf, toNat_withHighHalf, toNat_withHighHalf,
        toNat_withLowHalf]
      omega

end Part

namespace Register

theorem whole_whole (r : Register) : r.whole.whole = r.whole := by
  cases r <;> rfl

theorem part_whole (r : Register) : r.whole.part = .whole := by
  cases r <;> rfl

/-- The number that a sequence of writes makes of a word: those to registers in it, one after the
other. -/
def wordAfter (whole : Register) (word : Nat) (writes : List (Register × UInt16)) : Nat :=
  (writes.filter fun write => write.1.whole = whole).foldl
    (fun word write => write.1.part.replaced word write.2.toNat) word

end Register

namespace Cpu

/-- Register writes one after the other. -/
def writeAll (c : Cpu) (writes : List (Register × UInt16)) : Cpu :=
  writes.foldl (fun c write => c.write write.1 write.2) c

/-- Processors with the same words, instruction pointer and flags are equal. -/
theorem ext_read_whole {c c' : Cpu} (hwords : ∀ q : Register, c.read q.whole = c'.read q.whole)
    (hip : c.ip = c'.ip) (hflags : c.flags = c'.flags) : c = c' := by
  refine ext_valueOf (fun q => ?_) hip hflags
  rw [valueOf, valueOf, hwords]

/-! ## One write -/

/-- A write replaces the bits of the register in its word and leaves the other words. -/
theorem toNat_read_whole_write (c : Cpu) (r q : Register) (value : UInt16) :
    ((c.write r value).read q.whole).toNat =
      if r.whole = q.whole then r.part.replaced (c.read q.whole).toNat value.toNat
      else (c.read q.whole).toNat := by
  rw [read_whole_write]
  by_cases h : r.whole = q.whole
  · rw [if_pos h, if_pos h.symm, Part.toNat_put, h]
  · rw [if_neg h, if_neg (Ne.symm h)]

/-- After a write to a word, each register in it is read as its bits of the value. -/
theorem toNat_read_write_whole (c : Cpu) (q : Register) (value : UInt16) :
    ((c.write q.whole value).read q).toNat =
      value.toNat / 2 ^ q.part.place % 2 ^ q.part.bits := by
  rw [toNat_read, valueOf, read_whole_write, if_pos q.whole_whole.symm, q.part_whole, Part.put]

/-! ## Sequences of writes -/

theorem ip_writeAll (c : Cpu) (writes : List (Register × UInt16)) :
    (c.writeAll writes).ip = c.ip := by
  induction writes generalizing c with
  | nil => rfl
  | cons write writes ih => exact (ih _).trans (c.ip_write ..)

theorem flags_writeAll (c : Cpu) (writes : List (Register × UInt16)) :
    (c.writeAll writes).flags = c.flags := by
  induction writes generalizing c with
  | nil => rfl
  | cons write writes ih => exact (ih _).trans (c.flags_write ..)

/-- Each word is what the writes to it have made of it. -/
theorem toNat_read_whole_writeAll (c : Cpu) (q : Register) (writes : List (Register × UInt16)) :
    ((c.writeAll writes).read q.whole).toNat =
      q.whole.wordAfter (c.read q.whole).toNat writes := by
  induction writes generalizing c with
  | nil => rfl
  | cons write writes ih =>
    have hcons : c.writeAll (write :: writes) = (c.write write.1 write.2).writeAll writes := rfl
    rw [hcons, ih, toNat_read_whole_write, Register.wordAfter, Register.wordAfter,
      List.filter_cons]
    by_cases h : write.1.whole = q.whole
    · rw [if_pos h, if_pos (decide_eq_true h), List.foldl_cons]
    · rw [if_neg h, if_neg (by simpa using h)]

/-- A register is read as its bits of what the writes to its word have made of it. -/
theorem toNat_read_writeAll (c : Cpu) (q : Register) (writes : List (Register × UInt16)) :
    ((c.writeAll writes).read q).toNat =
      q.whole.wordAfter (c.read q.whole).toNat writes / 2 ^ q.part.place % 2 ^ q.part.bits := by
  rw [toNat_read, valueOf, toNat_read_whole_writeAll]

/-- Writes to registers that share no bit commute. -/
theorem write_comm (c : Cpu) {q r : Register} (h : ¬ q.Overlaps r) (u v : UInt16) :
    (c.write q u).write r v = (c.write r v).write q u := by
  refine ext_read_whole (fun x => ?_) (by simp) (by simp)
  by_cases hq : x.whole = q.whole
  · by_cases hr : x.whole = r.whole
    · -- in one word the two parts lie side by side
      have hqr : q.whole = r.whole := hq.symm.trans hr
      have hpart : ¬ q.part.Overlaps r.part := fun hp => h ⟨hqr, hp⟩
      simp only [read_whole_write, hq, hqr, if_true]
      exact Part.put_comm hpart ..
    · have hqr : q.whole ≠ r.whole := hq ▸ hr
      simp only [read_whole_write, hq, if_true, if_neg hqr]
  · by_cases hr : x.whole = r.whole
    · have hqr : r.whole ≠ q.whole := hr ▸ hq
      simp only [read_whole_write, hr, if_true, if_neg hqr]
    · simp only [read_whole_write, if_neg hq, if_neg hr]

end Cpu

/-! ## The conclusion -/

/-- Byte and word registers are views of eight words, and their numbers are the same registers.
After a write the register holds the value, cut to its width, registers that share no bit with it
and all other words are as before, its own word has only the bits of the register replaced, and each
part of a written word is that part of the value. A sequence of writes leaves in each word what the
writes to it have made of it, and each register is a part of its word. Writes to registers that
share no bit commute. -/
theorem registers_are_views (c : Cpu) :
    (∀ r : Register, Checked.readRegister c r = .ok (c.read r) ∧
      ∀ value, Checked.writeRegister c r value = .ok (c.write r value)) ∧
    (∀ (r : Register) (value : UInt16),
      let after := c.write r value
      (after.read r).toNat = value.toNat % 2 ^ r.width.bits ∧
      (∀ q : Register, ¬ q.Overlaps r → after.read q = c.read q) ∧
      (after.read r.whole).toNat = r.part.replaced (c.read r.whole).toNat value.toNat ∧
      (∀ q : Register, q.whole = r →
        (after.read q).toNat = value.toNat / 2 ^ q.part.place % 2 ^ q.part.bits) ∧
      (∀ q : Register, q.whole ≠ r.whole → after.read q = c.read q) ∧
      after.ip = c.ip ∧ after.flags = c.flags) ∧
    (∀ writes : List (Register × UInt16),
      let after := c.writeAll writes
      (∀ q : Register, (after.read q).toNat =
        q.whole.wordAfter (c.read q.whole).toNat writes / 2 ^ q.part.place % 2 ^ q.part.bits) ∧
      after.ip = c.ip ∧ after.flags = c.flags) ∧
    ∀ (q r : Register) (u v : UInt16), ¬ q.Overlaps r →
      (c.write q u).write r v = (c.write r v).write q u := by
  refine ⟨fun r => ⟨Checked.readRegister_eq c r, Checked.writeRegister_eq c r⟩, ?_, ?_, ?_⟩
  · intro r value after
    have hread : ∀ q : Register, ¬ q.Overlaps r → after.read q = c.read q := by
      intro q hq
      rw [← UInt16.toNat_inj, Cpu.toNat_read, Cpu.toNat_read, c.valueOf_write_of_not_overlaps hq]
    have hword : (after.read r.whole).toNat =
        r.part.replaced (c.read r.whole).toNat value.toNat := by
      rw [c.toNat_read_whole_write, if_pos rfl]
    refine ⟨?_, hread, hword, ?_, ?_, c.ip_write r value, c.flags_write r value⟩
    · rw [Cpu.toNat_read, c.valueOf_write_self]
    · rintro q rfl
      exact c.toNat_read_write_whole q value
    · intro q hq
      exact hread q fun hover => hq hover.1
  · intro writes after
    exact ⟨fun q => c.toNat_read_writeAll q writes, c.ip_writeAll writes, c.flags_writeAll writes⟩
  · intro q r u v h
    exact c.write_comm h u v

/-- The high half of `ax` is written after its low half and the other way round, and `bx` between
two writes to its halves: the halves keep to themselves, and the word takes both. -/
theorem registers_are_views_halves :
    let c : Cpu := { ax := 0x1234, bx := 0x5678 }
    ¬ Register.al.Overlaps .ah ∧
      (c.write .al 0xFFCD).write .ah 0xEEAB = (c.write .ah 0xEEAB).write .al 0xFFCD ∧
      ((c.write .ah 0xEEAB).read .ax).toNat = 0xAB34 ∧ (c.write .ah 0xEEAB).read .al = 0x34 ∧
      ((c.write .bx 0xBEEF).read .bh).toNat = 0xBE ∧
      ((c.writeAll [(.bl, 1), (.bx, 0xBEEF), (.al, 2), (.bh, 3)]).read .bx).toNat = 0x03EF := by
  intro c
  have happart : ¬ Register.al.Overlaps .ah := by decide
  obtain ⟨-, hwrite, hwrites, hcomm⟩ := registers_are_views c
  obtain ⟨-, hkept, hword, -, -, -, -⟩ := hwrite .ah 0xEEAB
  obtain ⟨-, -, -, hparts, -, -, -⟩ := hwrite .bx 0xBEEF
  obtain ⟨hafter, -, -⟩ := hwrites [(.bl, 1), (.bx, 0xBEEF), (.al, 2), (.bh, 3)]
  have hax : Register.ah.part.replaced 0x1234 0xEEAB = 0xAB34 := by decide
  have hal : lowHalf 0x1234 = 0x34 := by decide
  have hbx : Register.bx.wordAfter 0x5678 [(.bl, 1), (.bx, 0xBEEF), (.al, 2), (.bh, 3)] / 2 ^ 0 %
      2 ^ 16 = 0x03EF := by decide
  exact ⟨happart, hcomm .al .ah 0xFFCD 0xEEAB happart, hword.trans hax,
    (hkept .al happart).trans hal, (hparts .bh rfl).trans rfl, (hafter .bx).trans hbx⟩

end Machine8086
