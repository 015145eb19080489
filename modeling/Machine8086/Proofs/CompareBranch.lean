import Machine8086.Proofs.JumpTarget
import Machine8086.Proofs.Undoing

/-!
# Comparing and branching

A comparison sets the flags that a subtraction of the same operands would set (`comparedFlags`) and
stores nothing (`execute_cmp`). The zero flag then says that the two values are equal, since two
numbers of a width differ by a multiple of its bound only if they are the same
(`Operation.result_cmp_eq_zero_iff`). A jump on a clear zero flag that stands behind the comparison
is still there, as memory has not changed, and is taken if the values differ.
`compare_branches_on_difference` is about the two steps and about what a subtraction does instead.
-/

namespace Machine8086

/-! ## Flags of a comparison -/

/-- The flags that comparing two values of a width sets. -/
def comparedFlags (w : Width) (left right : Nat) : Flags :=
  ⟨decide (left = right), (((left : Int) - right) % 2 ^ w.bits).toNat.testBit (w.bits - 1)⟩

theorem Operation.result_cmp_eq_zero_iff {w : Width} {left right : Nat} (hleft : left < 2 ^ w.bits)
    (hright : right < 2 ^ w.bits) : cmp.result w left right = 0 ↔ left = right := by
  have hleft' : (left : Int) < 2 ^ w.bits := by exact_mod_cast hleft
  have hright' : (right : Int) < 2 ^ w.bits := by exact_mod_cast hright
  have hresult : (cmp.result w left right : Int) = ((left : Int) - right) % 2 ^ w.bits :=
    natCast_result_sub w left right
  rw [← Int.natCast_inj, hresult, Int.natCast_zero, ← Int.emod_eq_emod_iff_emod_sub_eq_zero,
    Int.emod_eq_of_lt (Int.natCast_nonneg _) hleft',
    Int.emod_eq_of_lt (Int.natCast_nonneg _) hright', Int.natCast_inj]

theorem flagsOf_result_cmp {w : Width} {left right : Nat} (hleft : left < 2 ^ w.bits)
    (hright : right < 2 ^ w.bits) :
    flagsOf w (Operation.cmp.result w left right) = comparedFlags w left right := by
  rw [flagsOf, comparedFlags, decide_eq_decide.2 (Operation.result_cmp_eq_zero_iff hleft hright),
    Operation.result]

/-! ## Processors with the same registers -/

section

variable {w : Width} {destination : Operand} {source : Source} {m m' : Memory} {c c' : Cpu}

theorem Source.valueIn_congr (h : ∀ q, c'.valueOf q = c.valueOf q) :
    source.valueIn m c' w = source.valueIn m c w := by
  cases source with
  | register q => exact h q
  | memory o => rw [valueIn, valueIn, Cpu.addressOf_congr fun q _ => h q]
  | immediate imm => rfl

/-- What a store does can be told from the flags set before as well. -/
theorem Stored.set_flags {value : Nat} (h : Stored w value destination m c m' c') (flags : Flags) :
    Stored w value destination m { c with flags := flags } m' c' := by
  have hflags := c.valueOf_set_flags flags
  cases destination with
  | register r =>
    obtain ⟨rfl, hvalue, hrest⟩ := h
    exact ⟨rfl, hvalue, fun q hq => (hrest q hq).trans (hflags q).symm⟩
  | memory o =>
    have haddress : ({ c with flags := flags } : Cpu).addressOf o = c.addressOf o :=
      Cpu.addressOf_congr fun q _ => hflags q
    rw [Stored, haddress]
    exact ⟨h.1, h.2.1, fun q => (h.2.2 q).trans (hflags q).symm⟩

/-! ## Comparisons -/

/-- A comparison sets the flags and nothing else. -/
theorem execute_cmp (m : Memory) (c : Cpu) (hmatched : Matched destination source)
    (hd : destination.HasWidth w) (hs : source.HasWidth w) :
    execute m c (.pair .cmp destination source) =
      .ok (m, { c with
        flags := comparedFlags w (destination.toSource.valueIn m c w)
          (source.valueIn m c w) }) := by
  have hleft := Source.valueIn_lt m c (Operand.hasWidth_toSource hd)
  have hright := Source.valueIn_lt m c hs
  rw [← flagsOf_result_cmp hleft hright]
  exact (Meaning.cmp hd hs (Operation.natCast_result_sub ..)).execute_eq ⟨rfl, hmatched⟩

/-- A subtraction stores the difference, and is otherwise a comparison. -/
theorem exists_execute_sub (m : Memory) (c : Cpu) (hmatched : Matched destination source)
    (hd : destination.HasWidth w) (hs : source.HasWidth w) :
    let left := destination.toSource.valueIn m c w
    let right := source.valueIn m c w
    let compared := { c with flags := comparedFlags w left right }
    ∃ m' c', execute m c (.pair .sub destination source) = .ok (m', c') ∧
      c'.flags = compared.flags ∧ c'.ip = compared.ip ∧
      Stored w (Operation.sub.result w left right) destination m compared m' c' := by
  intro left right compared
  have hleft : left < 2 ^ w.bits := Source.valueIn_lt m c (Operand.hasWidth_toSource hd)
  have hright : right < 2 ^ w.bits := Source.valueIn_lt m c hs
  obtain ⟨m', c', hexecute, hstored, hflags, hip⟩ :=
    exists_execute_arithmetic m c (.inr rfl) hmatched hd hs
  exact ⟨m', c', hexecute, hflags.trans (flagsOf_result_cmp hleft hright), hip, hstored.set_flags _⟩

end

/-- A step of a comparison goes to the next instruction and sets the flags. -/
theorem Simulator.step_cmp {s : Simulator} {d : Decoded} {destination : Operand} {source : Source}
    (hdecode : decode s.memory s.cpu.ip addressSpace = .ok d)
    (hcmp : d.instruction = .pair .cmp destination source) :
    ∃ (w : Width) (step : Step), (Operands.pair destination source).width? = some w ∧
      step.toDecoded = d ∧
      s.step = .ok (step, { s with cpu := { s.cpu with
        ip := UInt16.ofNat (s.cpu.ip.toNat + d.size)
        flags := comparedFlags w (destination.toSource.valueIn s.memory s.cpu w)
          (source.valueIn s.memory s.cpu w) } }) := by
  have hwell : d.instruction.WellFormed :=
    (Instruction.decodable_iff_wellFormed _).1 ⟨s.memory, _, _, d, hdecode, rfl⟩
  rw [hcmp] at hwell
  obtain ⟨w, hw, hd, hs⟩ := hwell.2.exists_width
  have hexecute := execute_cmp s.memory { s.cpu with ip := d.next } hwell.2 hd hs
  -- the operands have the values that they had before the instruction pointer moved
  have hvalues := s.cpu.valueOf_set_ip d.next
  rw [Source.valueIn_congr hvalues, Source.valueIn_congr hvalues, ← hcmp] at hexecute
  obtain ⟨step, hstep, hdecoded⟩ := step_of_execute hdecode hexecute
  rw [d.next_eq_ofNat, (decode_eq_ok hdecode).1] at hstep
  exact ⟨w, step, hw, hdecoded, hstep⟩

/-! ## The conclusion -/

/-- In a state where a comparison stands at the instruction pointer and a jump on a clear zero flag
behind it, two steps succeed. They change the flags, which say whether the values of the operands
are equal and give the top bit of their difference, and the instruction pointer, which goes past
both instructions and, if the values differ, by the offset of the jump. In every state and for all
operands of an instruction that the decoder returns, a subtraction sets the flags that a comparison
sets, and differs from it in storing the difference only. -/
theorem compare_branches_on_difference :
    (∀ (s : Simulator) (d j : Decoded) (destination : Operand) (source : Source) (offset : Int8),
      decode s.memory s.cpu.ip addressSpace = .ok d →
      d.instruction = .pair .cmp destination source →
      decode s.memory (UInt16.ofNat (s.cpu.ip.toNat + d.size)) addressSpace = .ok j →
      j.instruction = .jump .jne offset →
      ∃ w, (Operands.pair destination source).width? = some w ∧
        let left := destination.toSource.valueIn s.memory s.cpu w
        let right := source.valueIn s.memory s.cpu w
        ∃ (first second : Step) (middle : Simulator) (ip : UInt16),
          s.step = .ok (first, middle) ∧ first.toDecoded = d ∧
          middle.step = .ok (second, { s with cpu := { s.cpu with
            ip := ip
            flags := comparedFlags w left right } }) ∧ second.toDecoded = j ∧
          (ip.toNat : Int) =
            (s.cpu.ip.toNat + d.size + 2 + if left = right then 0 else offset.toInt) % 65536) ∧
    ∀ (m : Memory) (c : Cpu) (destination : Operand) (source : Source),
      DecodablePair destination source →
      ∃ w, (Operands.pair destination source).width? = some w ∧
        let left := destination.toSource.valueIn m c w
        let right := source.valueIn m c w
        let compared := { c with flags := comparedFlags w left right }
        execute m c (.pair .cmp destination source) = .ok (m, compared) ∧
        ∃ m' c', execute m c (.pair .sub destination source) = .ok (m', c') ∧
          c'.flags = compared.flags ∧ c'.ip = compared.ip ∧
          Stored w (Operation.sub.result w left right) destination m compared m' c' := by
  constructor
  · intro s d j destination source offset hdecode hcmp hdecode' hjne
    obtain ⟨w, first, hw, hfirst, hstep⟩ := Simulator.step_cmp hdecode hcmp
    -- memory is as it was, so the jump is decoded in the middle as well
    let middle : Simulator := { s with cpu := { s.cpu with
      ip := UInt16.ofNat (s.cpu.ip.toNat + d.size)
      flags := comparedFlags w (destination.toSource.valueIn s.memory s.cpu w)
        (source.valueIn s.memory s.cpu w) } }
    have hmiddle : decode middle.memory middle.cpu.ip addressSpace = .ok j := hdecode'
    obtain ⟨second, ip, hsecond, hstep', hip⟩ := Simulator.step_jne hmiddle hjne
    refine ⟨w, hw, first, second, middle, ip, hstep, hfirst, hstep', hsecond, hip.trans ?_⟩
    have hzero : middle.cpu.flags.zero = decide (destination.toSource.valueIn s.memory s.cpu w =
      source.valueIn s.memory s.cpu w) := rfl
    have hbehind : middle.cpu.ip.toNat = (s.cpu.ip.toNat + d.size) % 65536 := UInt16.toNat_ofNat'
    simp only [hzero, hbehind, decide_eq_true_eq]
    split <;> omega
  · intro m c destination source hpair
    obtain ⟨w, hw, hd, hs⟩ := hpair.matched.exists_width
    exact ⟨w, hw, execute_cmp m c hpair.matched hd hs, exists_execute_sub m c hpair.matched hd hs⟩

/-- A comparison of different values at the bottom of memory, and a jump from there to its top. -/
theorem compare_branches_on_difference_top :
    let m := Memory.zero.writeBytes 0 [0x83, 0xF9, 0x05, 0x75, 0x80]
    let s : Simulator := { memory := m }
    let five := Source.immediate (.ofWord 5)
    (∃ (first second : Step) (middle : Simulator), s.step = .ok (first, middle) ∧
      middle.step = .ok (second, { s with cpu := { ip := 65413, flags := { sign := true } } })) ∧
    ∃ m' c', execute m s.cpu (.pair .sub (.register .cx) five) = .ok (m', c') ∧
      c'.flags = { sign := true } ∧ c'.valueOf .cx = 65531 := by
  intro m s five
  let d : Decoded := ⟨0, 3, .pair .cmp (.register .cx) five⟩
  let j : Decoded := ⟨3, 2, .jump .jne (-128)⟩
  have hdecode : decode s.memory s.cpu.ip addressSpace = .ok d := by decide
  have hdecode' : decode s.memory 3 addressSpace = .ok j := by decide
  have hleft : (Operand.register .cx).toSource.valueIn m s.cpu .word = 0 :=
    show ({} : Cpu).valueOf .cx = 0 by decide
  have hright : five.valueIn m s.cpu .word = 5 := rfl
  obtain ⟨hsteps, hsubtraction⟩ := compare_branches_on_difference
  constructor
  · obtain ⟨w, hw, first, second, middle, ip, hstep, -, hstep', -, hip⟩ :=
      hsteps s d j (.register .cx) five (-128) hdecode rfl hdecode' rfl
    cases (show some Width.word = some w from hw)
    rw [hleft, hright] at hip hstep'
    have htarget : ((0 : Nat) + (3 : Nat) + 2 + if 0 = 5 then 0 else (-128 : Int8).toInt) % 65536 =
      ((65413 : UInt16).toNat : Int) := by decide
    obtain rfl : ip = 65413 := UInt16.toNat_inj.1 (Int.natCast_inj.1 (hip.trans htarget))
    exact ⟨first, second, middle, hstep, hstep'⟩
  · obtain ⟨w, hw, -, m', c', hexecute, hflags, -, -, hvalue, -⟩ :=
      hsubtraction m s.cpu (.register .cx) five ⟨.cmp, s.memory, _, _, d, hdecode, rfl⟩
    cases (show some Width.word = some w from hw)
    rw [hleft, hright] at hflags hvalue
    exact ⟨m', c', hexecute, hflags, hvalue⟩

end Machine8086
