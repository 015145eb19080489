import Machine8086.Proofs.Word
import Machine8086.Cpu

/-!
# The register file

Sixteen register names stand for bits of eight words: a register has a word register it lies in
(`Register.whole`) and a part of it that it names (`Register.part`). `Cpu.valueOf` reads those bits
as a number, and `toNat_read` says that this is what reading a register returns. Writing a register
puts the value into its own bits (`valueOf_write_self`) and leaves all registers that share no bit
with it (`valueOf_write_of_not_overlaps`); the values of the registers determine the processor up to
its instruction pointer and flags (`ext_valueOf`), and a register together with the registers apart
from it is enough (`valueOf_eq_of_agree`).
-/

namespace Machine8086

/-- The part of a word register that a register name stands for. -/
inductive Part where
  | low | high | whole
  deriving DecidableEq, Repr

namespace Part

/-- The place of the lowest bit of a part. -/
def place : Part → Nat
  | high => 8
  | low | whole => 0

/-- The number of bits of a part. -/
def bits : Part → Nat
  | low | high => 8
  | whole => 16

/-- The bits of a part, moved down. -/
def take : Part → UInt16 → UInt16
  | low, word => lowHalf word
  | high, word => highHalf word
  | whole, word => word

/-- A word with the bits of a part replaced by those of `value`. -/
def put : Part → UInt16 → UInt16 → UInt16
  | low, word, value => withLowHalf word value
  | high, word, value => withHighHalf word value
  | whole, _, value => value

/-- The two parts have a bit in common. -/
def Overlaps (p q : Part) : Prop :=
  p.place < q.place + q.bits ∧ q.place < p.place + p.bits

instance (p q : Part) : Decidable (p.Overlaps q) := inferInstanceAs (Decidable (_ ∧ _))

theorem toNat_take (p : Part) (word : UInt16) :
    (p.take word).toNat = word.toNat / 2 ^ p.place % 2 ^ p.bits := by
  have hword := word.toNat_lt
  cases p with
  | low =>
    rw [take, toNat_lowHalf, place, bits]
    omega
  | high =>
    rw [take, toNat_highHalf, place, bits]
    omega
  | whole =>
    rw [take, place, bits]
    omega

/-- A part holds what was put there, cut to its size. -/
theorem toNat_take_put_self (p : Part) (word value : UInt16) :
    (p.take (p.put word value)).toNat = value.toNat % 2 ^ p.bits := by
  have hvalue := value.toNat_lt
  cases p with
  | low =>
    rw [take, put, toNat_lowHalf, toNat_withLowHalf, bits]
    omega
  | high =>
    rw [take, put, toNat_highHalf, toNat_withHighHalf, bits]
    omega
  | whole =>
    rw [take, put, bits]
    omega

/-- What is put into a part is not seen by the parts beside it. -/
theorem take_put_of_not_overlaps {p q : Part} (h : ¬ p.Overlaps q) (word value : UInt16) :
    p.take (q.put word value) = p.take word := by
  have hword := word.toNat_lt
  rw [← UInt16.toNat_inj]
  cases p with
  | low =>
    cases q with
    | low | whole => exact absurd (by decide) h
    | high =>
      rw [take, take, put, toNat_lowHalf, toNat_lowHalf, toNat_withHighHalf]
      omega
  | high =>
    cases q with
    | high | whole => exact absurd (by decide) h
    | low =>
      rw [take, take, put, toNat_highHalf, toNat_highHalf, toNat_withLowHalf]
      omega
  | whole => cases q <;> exact absurd (by decide) h

/-- A part and the parts beside it determine the word. -/
theorem eq_of_take_eq {p : Part} {v w : UInt16} (h : p.take v = p.take w)
    (hbeside : ∀ q : Part, ¬ q.Overlaps p → q.take v = q.take w) : v = w := by
  have hhalves : low.take v = low.take w → high.take v = high.take w → v = w := by
    intro hlow hhigh
    rw [take, take, ← UInt16.toNat_inj, toNat_lowHalf, toNat_lowHalf] at hlow
    rw [take, take, ← UInt16.toNat_inj, toNat_highHalf, toNat_highHalf] at hhigh
    rw [← UInt16.toNat_inj]
    omega
  cases p with
  | low => exact hhalves h (hbeside high (by decide))
  | high => exact hhalves (hbeside low (by decide)) h
  | whole => exact h

end Part

namespace Register

/-- The word register that contains a register. -/
def whole : Register → Register
  | al | ah | ax => ax
  | bl | bh | bx => bx
  | cl | ch | cx => cx
  | dl | dh | dx => dx
  | sp => sp
  | bp => bp
  | si => si
  | di => di

/-- The part of its word register that a register stands for. -/
def part : Register → Part
  | al | bl | cl | dl => .low
  | ah | bh | ch | dh => .high
  | ax | bx | cx | dx | sp | bp | si | di => .whole

/-- The two registers have a bit in common. -/
def Overlaps (q r : Register) : Prop :=
  q.whole = r.whole ∧ q.part.Overlaps r.part

instance (q r : Register) : Decidable (q.Overlaps r) := inferInstanceAs (Decidable (_ ∧ _))

@[simp] theorem bits_part (r : Register) : r.part.bits = r.width.bits := by
  cases r <;> rfl

/-- Beside a half of a word register lies its other half. -/
theorem exists_beside (r : Register) {p : Part} (h : ¬ p.Overlaps r.part) :
    ∃ q : Register, q.whole = r.whole ∧ q.part = p := by
  cases p with
  | low =>
    cases r with
    | ah => exact ⟨al, rfl, rfl⟩
    | bh => exact ⟨bl, rfl, rfl⟩
    | ch => exact ⟨cl, rfl, rfl⟩
    | dh => exact ⟨dl, rfl, rfl⟩
    | _ => exact absurd (by decide) h
  | high =>
    cases r with
    | al => exact ⟨ah, rfl, rfl⟩
    | bl => exact ⟨bh, rfl, rfl⟩
    | cl => exact ⟨ch, rfl, rfl⟩
    | dl => exact ⟨dh, rfl, rfl⟩
    | _ => exact absurd (by decide) h
  | whole => cases r <;> exact absurd (by decide) h

end Register

namespace Cpu

/-- The bits of a register as a number. -/
def valueOf (c : Cpu) (r : Register) : Nat :=
  (c.read r.whole).toNat / 2 ^ r.part.place % 2 ^ r.part.bits

theorem valueOf_lt (c : Cpu) (r : Register) : c.valueOf r < 2 ^ r.width.bits := by
  rw [valueOf, Register.bits_part]
  exact Nat.mod_lt _ (Nat.two_pow_pos _)

theorem read_eq_take (c : Cpu) (r : Register) : c.read r = r.part.take (c.read r.whole) := by
  cases r <;> rfl

/-- Reading a register returns its bits. -/
theorem toNat_read (c : Cpu) (r : Register) : (c.read r).toNat = c.valueOf r := by
  rw [read_eq_take, Part.toNat_take, valueOf]

/-- Writing a register replaces its bits in its word register and leaves the other words. -/
theorem read_whole_write (c : Cpu) (r q : Register) (value : UInt16) :
    (c.write r value).read q.whole =
      if q.whole = r.whole then r.part.put (c.read r.whole) value else c.read q.whole := by
  -- each pair of registers by evaluation; everything below reasons about parts instead
  cases r <;> cases q <;> rfl

@[simp] theorem ip_write (c : Cpu) (r : Register) (value : UInt16) :
    (c.write r value).ip = c.ip := by
  cases r <;> rfl

@[simp] theorem flags_write (c : Cpu) (r : Register) (value : UInt16) :
    (c.write r value).flags = c.flags := by
  cases r <;> rfl

theorem write_set_flags (c : Cpu) (flags : Flags) (r : Register) (value : UInt16) :
    ({ c with flags := flags } : Cpu).write r value =
      { c.write r value with flags := flags } := by
  cases r <;> rfl

theorem valueOf_set_flags (c : Cpu) (flags : Flags) (r : Register) :
    ({ c with flags := flags } : Cpu).valueOf r = c.valueOf r := by
  cases r <;> rfl

theorem valueOf_set_ip (c : Cpu) (ip : UInt16) (r : Register) :
    ({ c with ip := ip } : Cpu).valueOf r = c.valueOf r := by
  cases r <;> rfl

/-- A write puts the value, cut to the width of the register, into the bits of the register. -/
theorem valueOf_write_self (c : Cpu) (r : Register) (value : UInt16) :
    (c.write r value).valueOf r = value.toNat % 2 ^ r.width.bits := by
  rw [← toNat_read, read_eq_take, read_whole_write, if_pos rfl, Part.toNat_take_put_self,
    Register.bits_part]

/-- A write leaves every register that shares no bit with the written one. -/
theorem valueOf_write_of_not_overlaps (c : Cpu) {q r : Register} (h : ¬ q.Overlaps r)
    (value : UInt16) : (c.write r value).valueOf q = c.valueOf q := by
  rw [← toNat_read, ← toNat_read, read_eq_take, read_eq_take c, read_whole_write]
  by_cases hwhole : q.whole = r.whole
  · have hpart : ¬ q.part.Overlaps r.part := fun hp => h ⟨hwhole, hp⟩
    -- in the same word the two parts lie side by side
    rw [if_pos hwhole, Part.take_put_of_not_overlaps hpart, hwhole]
  · rw [if_neg hwhole]

/-- Registers of equal values hold the same bits in the words they lie in. -/
theorem valueOf_eq_iff {c c' : Cpu} {r : Register} :
    c.valueOf r = c'.valueOf r ↔ r.part.take (c.read r.whole) = r.part.take (c'.read r.whole) := by
  rw [← toNat_read, ← toNat_read, UInt16.toNat_inj, read_eq_take, read_eq_take c']

/-- A register and the registers apart from it determine the whole register file. -/
theorem valueOf_eq_of_agree {c c' : Cpu} {r : Register} (h : c.valueOf r = c'.valueOf r)
    (hapart : ∀ q : Register, ¬ q.Overlaps r → c.valueOf q = c'.valueOf q) (q : Register) :
    c.valueOf q = c'.valueOf q := by
  by_cases hover : q.Overlaps r
  · -- `r` and what lies beside it make up their word, and `q` is a part of it
    have hword : c.read r.whole = c'.read r.whole := by
      refine Part.eq_of_take_eq (valueOf_eq_iff.mp h) ?_
      intro p hp
      obtain ⟨q', hwhole, rfl⟩ := r.exists_beside hp
      have hq := valueOf_eq_iff.mp (hapart q' fun ho => hp ho.2)
      rwa [hwhole] at hq
    rw [valueOf, valueOf, hover.1, hword]
  · exact hapart q hover

/-- Processors with the same register values, instruction pointer and flags are equal. -/
theorem ext_valueOf {c c' : Cpu} (hvalues : ∀ r, c.valueOf r = c'.valueOf r) (hip : c.ip = c'.ip)
    (hflags : c.flags = c'.flags) : c = c' := by
  have hread : ∀ r, c.read r = c'.read r := fun r => by
    rw [← UInt16.toNat_inj, toNat_read, toNat_read, hvalues]
  obtain ⟨ax, bx, cx, dx, sp, bp, si, di, ip, flags⟩ := c
  obtain ⟨ax', bx', cx', dx', sp', bp', si', di', ip', flags'⟩ := c'
  rw [mk.injEq]
  exact ⟨hread .ax, hread .bx, hread .cx, hread .dx, hread .sp, hread .bp, hread .si, hread .di,
    hip, hflags⟩

end Cpu

end Machine8086
