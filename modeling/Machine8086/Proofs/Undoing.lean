import Machine8086.Proofs.Outcomes

/-!
# Additions and subtractions undone

A subtraction takes back what an addition of the same operands has done, and the other way round, as
long as the first of the two leaves the source alone (`Source.ApartFrom`). On numbers this is
arithmetic modulo a power of two (`Operation.sub_result_add`, `Operation.add_result_sub`). For the
machine it takes three facts about a store: the source keeps its value (`Stored.valueIn_source`),
the destination holds what was stored (`Stored.valueIn_destination`), and storing the old value
again gives back memory and registers (`Stored.undo`). `sub_undoes_add` puts them together.
-/

namespace Machine8086

/-! ## Numbers -/

namespace Operation

theorem sub_result_add (w : Width) {left : Nat} (right : Nat) (h : left < 2 ^ w.bits) :
    sub.result w (add.result w left right) right = left := by
  have hlt : (left : Int) < 2 ^ w.bits := by exact_mod_cast h
  rw [← Int.natCast_inj, natCast_result_sub, result]
  push_cast
  rw [Int.emod_sub_emod, Int.add_sub_cancel, Int.emod_eq_of_lt (Int.natCast_nonneg _) hlt]

theorem add_result_sub (w : Width) {left : Nat} (right : Nat) (h : left < 2 ^ w.bits) :
    add.result w (sub.result w left right) right = left := by
  have hlt : (left : Int) < 2 ^ w.bits := by exact_mod_cast h
  rw [← Int.natCast_inj, result]
  push_cast
  rw [natCast_result_sub, Int.emod_add_emod, Int.sub_add_cancel,
    Int.emod_eq_of_lt (Int.natCast_nonneg _) hlt]

end Operation

/-! ## Operands that a store leaves alone -/

/-- The two operands stand in an instruction that the decoder returns. -/
def DecodablePair (destination : Operand) (source : Source) : Prop :=
  ∃ operation, (Instruction.pair operation destination source).Decodable

/-- The registers that the address of a memory operand is made of. -/
def MemoryOperand.baseRegisters : MemoryOperand → List Register
  | .direct _ => []
  | .based base _ => base.summands

/-- Storing to the destination leaves the source alone: it is an immediate, a register other than
the destination, or memory at an address that the destination register has no part in. -/
inductive Source.ApartFrom : Source → Operand → Prop
  | immediate (imm : Immediate) (destination : Operand) : ApartFrom (.immediate imm) destination
  | register {q : Register} {destination : Operand} (h : destination ≠ .register q) :
      ApartFrom (.register q) destination
  | memory {o : MemoryOperand} {r : Register} (h : r.whole ∉ o.baseRegisters) :
      ApartFrom (.memory o) (.register r)

theorem DecodablePair.matched {destination : Operand} {source : Source}
    (h : DecodablePair destination source) : Matched destination source := by
  obtain ⟨operation, hdecodable⟩ := h
  exact ((Instruction.decodable_iff_wellFormed _).1 hdecodable).2

/-- Parts of one size that have a bit in common are the same. -/
theorem Part.eq_of_overlaps {p q : Part} (hbits : p.bits = q.bits) (hover : p.Overlaps q) :
    p = q := by
  cases p <;> cases q <;>
    first | rfl | exact absurd hbits (by decide) | exact absurd hover (by decide)

/-- A register is known by its word and its part of it. -/
theorem Register.eq_of_part_eq {q r : Register} (hwhole : q.whole = r.whole)
    (hpart : q.part = r.part) : q = r := by
  cases q <;> cases r <;>
    first | rfl | exact absurd hwhole (by decide) | exact absurd hpart (by decide)

/-- Different registers of one width share no bit. -/
theorem Register.not_overlaps_of_ne {q r : Register} (hwidth : q.width = r.width) (hne : q ≠ r) :
    ¬ q.Overlaps r := by
  rintro ⟨hwhole, hpart⟩
  have hbits : q.part.bits = r.part.bits := by rw [q.bits_part, r.bits_part, hwidth]
  exact hne (Register.eq_of_part_eq hwhole (Part.eq_of_overlaps hbits hpart))

/-- Addresses are made of word registers. -/
theorem MemoryOperand.whole_of_mem_baseRegisters {o : MemoryOperand} {q : Register}
    (h : q ∈ o.baseRegisters) : q.whole = q := by
  cases o with
  | direct address => cases h
  | based base displacement =>
    have hall : ∀ q ∈ base.summands, q.whole = q := by
      cases base <;> decide
    exact hall q h

theorem Cpu.addressOf_congr {c c' : Cpu} {o : MemoryOperand}
    (h : ∀ q ∈ o.baseRegisters, c'.valueOf q = c.valueOf q) : c'.addressOf o = c.addressOf o := by
  cases o with
  | direct address => rfl
  | based base displacement =>
    have hmap : base.summands.map c'.valueOf = base.summands.map c.valueOf :=
      List.map_congr_left h
    rw [addressOf, addressOf, hmap]

/-- A source of a width has a value of that width. -/
theorem Source.valueIn_lt (m : Memory) (c : Cpu) {w : Width} {source : Source}
    (h : source.HasWidth w) : source.valueIn m c w < 2 ^ w.bits := by
  rw [← toNat_sourceValue m c h]
  exact Width.toNat_truncate_lt w _

namespace Stored

variable {w : Width} {value : Nat} {destination : Operand} {source : Source} {m m' : Memory}
  {c c' : Cpu}

/-- A source apart from the destination keeps its value. -/
theorem valueIn_source (h : Stored w value destination m c m' c')
    (hd : destination.HasWidth w) (hs : source.HasWidth w) (hapart : source.ApartFrom destination) :
    source.valueIn m' c' w = source.valueIn m c w := by
  cases hapart with
  | immediate imm => rfl
  | @register q _ hne =>
    cases destination with
    | register r =>
      have hqr : ¬ q.Overlaps r :=
        Register.not_overlaps_of_ne (hs.trans hd.symm) fun e => hne (congrArg _ e.symm)
      exact h.2.2 q hqr
    | memory o => exact h.2.2 q
  | @memory o r hbase =>
    obtain ⟨rfl, -, hrest⟩ := h
    -- the registers of the address are words other than the one that `r` lies in
    have haddress : c'.addressOf o = c.addressOf o := by
      refine Cpu.addressOf_congr fun q hq => hrest q fun hover => hbase ?_
      rw [← hover.1, MemoryOperand.whole_of_mem_baseRegisters hq]
      exact hq
    rw [Source.valueIn, Source.valueIn, haddress]

theorem addressOf_eq {o : MemoryOperand} (h : Stored w value (.memory o) m c m' c') :
    c'.addressOf o = c.addressOf o :=
  Cpu.addressOf_congr fun q _ => h.2.2 q

/-- The destination holds what was stored. -/
theorem valueIn_destination (h : Stored w value destination m c m' c') :
    destination.toSource.valueIn m' c' w = value := by
  cases destination with
  | register r => exact h.2.1
  | memory o =>
    rw [Operand.toSource, Source.valueIn, h.addressOf_eq]
    exact h.1

/-- Storing the old value once more gives back memory and registers. -/
theorem undo (h : Stored w value destination m c m' c') (flags : Flags) :
    let old := destination.toSource.valueIn m c w
    Stored w old destination m' c' m { c with flags := flags } := by
  have hflags := c.valueOf_set_flags flags
  cases destination with
  | register r =>
    obtain ⟨rfl, -, hrest⟩ := h
    exact ⟨rfl, hflags r, fun q hq => (hflags q).trans (hrest q hq).symm⟩
  | memory o =>
    obtain ⟨-, hbytes, hregisters⟩ := id h
    refine ⟨?_, ?_, fun q => (hflags q).trans (hregisters q).symm⟩
    · rw [h.addressOf_eq]
      rfl
    · intro address haddress
      rw [h.addressOf_eq] at haddress
      exact (hbytes address haddress).symm

end Stored

/-! ## One operation after the other -/

section

variable {operation : Operation} {destination : Operand} {source : Source} {w : Width}
  {m m' : Memory} {c c' : Cpu}

/-- What an addition or a subtraction means: its result is stored, and the flags tell of it. -/
theorem meaning_arithmetic_iff {result : Nat} (hop : operation = .add ∨ operation = .sub)
    (hmatched : Matched destination source) (hd : destination.HasWidth w)
    (hs : source.HasWidth w)
    (hresult : operation.result w (destination.toSource.valueIn m c w) (source.valueIn m c w) =
      result) :
    Meaning m c (.pair operation destination source) m' c' ↔
      Stored w result destination m c m' c' ∧ c'.flags = flagsOf w result ∧ c'.ip = c.ip := by
  subst hresult
  -- the operands have one width only
  have hwidth : ∀ {v : Width}, destination.HasWidth v → source.HasWidth v → v = w := fun hd' hs' =>
    Option.some.inj ((hmatched.width?_eq hd' hs').symm.trans (hmatched.width?_eq hd hs))
  constructor
  · intro h
    generalize hi : Instruction.pair operation destination source = i at h
    cases h with
    | mov | cmp => cases hi; rcases hop with h | h <;> cases h
    | jneTaken | jneNotTaken => cases hi
    | add hd' hs' hresult hstored hflags hip =>
      cases hi
      obtain rfl := hwidth hd' hs'
      subst hresult
      exact ⟨hstored, hflags, hip⟩
    | sub hd' hs' hresult hstored hflags hip =>
      cases hi
      obtain rfl := hwidth hd' hs'
      have hnat := congrArg Int.toNat hresult
      rw [Int.toNat_natCast] at hnat
      subst hnat
      exact ⟨hstored, hflags, hip⟩
  · rintro ⟨hstored, hflags, hip⟩
    rcases hop with rfl | rfl
    · exact .add hd hs rfl hstored hflags hip
    · exact .sub hd hs (Operation.natCast_result_sub ..) hstored hflags hip

theorem Operation.not_jump_of_arithmetic (hop : operation = .add ∨ operation = .sub) :
    operation.isRelativeJump = false := by
  rcases hop with rfl | rfl
  · rfl
  · rfl

/-- Additions and subtractions succeed, and store their result. -/
theorem exists_execute_arithmetic (m : Memory) (c : Cpu)
    (hop : operation = .add ∨ operation = .sub) (hmatched : Matched destination source)
    (hd : destination.HasWidth w) (hs : source.HasWidth w) :
    let result := operation.result w (destination.toSource.valueIn m c w) (source.valueIn m c w)
    ∃ m' c', execute m c (.pair operation destination source) = .ok (m', c') ∧
      Stored w result destination m c m' c' ∧ c'.flags = flagsOf w result ∧ c'.ip = c.ip := by
  intro result
  have hjump := Operation.not_jump_of_arithmetic hop
  obtain ⟨m', c', hmeaning⟩ := exists_meaning m c (i := .pair operation destination source)
    ⟨hjump, hmatched⟩ (Operation.mem_executable_of_not_jump hjump)
  exact ⟨m', c', hmeaning.execute_eq ⟨hjump, hmatched⟩,
    (meaning_arithmetic_iff hop hmatched hd hs rfl).1 hmeaning⟩

/-- If the second operation takes back the result of the first, then executing both changes nothing
but the flags, which tell of the value that the destination has. -/
theorem execute_undone {first second : Operation} (hfirst : first = .add ∨ first = .sub)
    (hsecond : second = .add ∨ second = .sub)
    (hundo : ∀ {left : Nat} (right : Nat), left < 2 ^ w.bits →
      second.result w (first.result w left right) right = left)
    (hmatched : Matched destination source) (hd : destination.HasWidth w)
    (hs : source.HasWidth w) (hapart : source.ApartFrom destination) :
    ∃ m' c', execute m c (.pair first destination source) = .ok (m', c') ∧
      execute m' c' (.pair second destination source) =
        .ok (m, { c with flags := flagsOf w (destination.toSource.valueIn m c w) }) := by
  obtain ⟨m₁, c₁, hmiddle, hstored, -, hip⟩ :=
    exists_execute_arithmetic m c hfirst hmatched hd hs
  -- the second operation works on the same source and on what the first has stored
  have hback : second.result w (destination.toSource.valueIn m₁ c₁ w) (source.valueIn m₁ c₁ w) =
      destination.toSource.valueIn m c w := by
    rw [hstored.valueIn_destination, hstored.valueIn_source hd hs hapart]
    exact hundo _ (Source.valueIn_lt m c (Operand.hasWidth_toSource hd))
  have hmeaning := (meaning_arithmetic_iff hsecond hmatched hd hs hback).2
    ⟨hstored.undo (flagsOf w (destination.toSource.valueIn m c w)), rfl, hip.symm⟩
  exact ⟨m₁, c₁, hmiddle,
    hmeaning.execute_eq ⟨Operation.not_jump_of_arithmetic hsecond, hmatched⟩⟩

end

/-- Memories, processors and operands of an instruction that the decoder returns, with the source
apart from the destination. Adding and then subtracting succeeds and gives back memory and all
registers, and so does subtracting and then adding; the flags tell whether the value of the
destination is zero, and its top bit. -/
theorem sub_undoes_add (m : Memory) (c : Cpu) {destination : Operand} {source : Source}
    (h : DecodablePair destination source) (hapart : source.ApartFrom destination) :
    ∃ w, (Operands.pair destination source).width? = some w ∧
      let value := destination.toSource.valueIn m c w
      let restored := { c with flags := ⟨decide (value = 0), value.testBit (w.bits - 1)⟩ }
      (∃ m' c', execute m c (.pair .add destination source) = .ok (m', c') ∧
        execute m' c' (.pair .sub destination source) = .ok (m, restored)) ∧
      ∃ m' c', execute m c (.pair .sub destination source) = .ok (m', c') ∧
        execute m' c' (.pair .add destination source) = .ok (m, restored) := by
  obtain ⟨w, hw, hd, hs⟩ := h.matched.exists_width
  refine ⟨w, hw, ?_, ?_⟩
  · exact execute_undone (.inl rfl) (.inr rfl) (Operation.sub_result_add w) h.matched hd hs hapart
  · exact execute_undone (.inr rfl) (.inl rfl) (Operation.add_result_sub w) h.matched hd hs hapart

/-- The word that lies around the top of memory, added to `cx` and subtracted again. -/
theorem sub_undoes_add_top :
    let m := (Memory.zero.write 0xFFFF 0xFF).write 0 0xFF
    let c : Cpu := { cx := 0x8000 }
    let source := Source.memory (.based .bx (-1))
    DecodablePair (.register .cx) source ∧ source.ApartFrom (.register .cx) ∧
      ∃ m' c', execute m c (.pair .add (.register .cx) source) = .ok (m', c') ∧
        execute m' c' (.pair .sub (.register .cx) source) =
          .ok (m, { c with flags := { sign := true } }) := by
  intro m c source
  have hpair : DecodablePair (.register .cx) source :=
    ⟨.add, (Instruction.decodable_iff_wellFormed _).2 ⟨rfl, trivial⟩⟩
  have hapart : source.ApartFrom (.register .cx) := .memory (by decide)
  obtain ⟨w, hw, ⟨m', c', hadd, hsub⟩, -⟩ := sub_undoes_add m c hpair hapart
  cases hw
  have hvalue : ({ cx := 0x8000 } : Cpu).valueOf .cx = 0x8000 := rfl
  rw [show (Operand.register .cx).toSource.valueIn m c Register.cx.width = _ from hvalue] at hsub
  exact ⟨hpair, hapart, m', c', hadd, hsub⟩

end Machine8086
