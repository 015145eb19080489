import Machine8086.Execution
import Machine8086.Proofs.Arithmetic
import Machine8086.Proofs.RegisterFile
import Machine8086.Proofs.WellFormed

/-!
# What instructions mean

`Meaning m c i m' c'` describes, without the executor, what an instruction makes of a memory and a
processor: operands have numbers as values, arithmetic is taken modulo a power of two, and a store
changes the destination and nothing else (`Stored`). The instruction pointer of `c` is the one that
stands past the instruction. `execute_meaning` says that for whatever the decoder returns the
executor computes this and nothing else, and that it computes it for every move, addition,
subtraction, comparison and jump on a clear zero flag.
-/

namespace Machine8086

/-! ## Values of operands -/

/-- The registers that an address with a base is the sum of, in the order of the codes of the
bases. -/
def AddressBase.summands : AddressBase → List Register
  | .bxSi => [.bx, .si]
  | .bxDi => [.bx, .di]
  | .bpSi => [.bp, .si]
  | .bpDi => [.bp, .di]
  | .si => [.si]
  | .di => [.di]
  | .bp => [.bp]
  | .bx => [.bx]

/-- The address of a memory operand: the base registers and the signed displacement are added up
modulo 65536. -/
def Cpu.addressOf (c : Cpu) : MemoryOperand → UInt16
  | .direct address => address
  | .based base displacement =>
    UInt16.ofNat
      ((((base.summands.map c.valueOf).sum : Nat) + displacement.toInt) % 65536).toNat

/-- The number in memory at an address: a byte, or two with the low one first. -/
def Memory.valueAt (m : Memory) (w : Width) (address : UInt16) : Nat :=
  match w with
  | .byte => (m.read address).toNat
  | .word => (m.read address).toNat + 256 * (m.read (address + 1)).toNat

/-- The addresses that a value in memory takes up. -/
def cells (w : Width) (address : UInt16) : List UInt16 :=
  match w with
  | .byte => [address]
  | .word => [address, address + 1]

theorem mem_cells_word {address other : UInt16} :
    other ∈ cells .word address ↔ other = address ∨ other = address + 1 := by
  rw [cells, List.mem_cons, List.mem_singleton]

/-- The value of a source operand. -/
def Source.valueIn (m : Memory) (c : Cpu) (w : Width) : Source → Nat
  | .register r => c.valueOf r
  | .memory o => m.valueAt w (c.addressOf o)
  | .immediate imm => imm.value.toNat

/-! ## The relation -/

/-- The destination holds the value; memory and registers are otherwise as before. -/
def Stored (w : Width) (value : Nat) (destination : Operand) (m : Memory) (c : Cpu) (m' : Memory)
    (c' : Cpu) : Prop :=
  match destination with
  | .register r =>
    m' = m ∧ c'.valueOf r = value ∧ ∀ q : Register, ¬ q.Overlaps r → c'.valueOf q = c.valueOf q
  | .memory o =>
    m'.valueAt w (c.addressOf o) = value ∧
      (∀ address ∉ cells w (c.addressOf o), m'.read address = m.read address) ∧
      ∀ q, c'.valueOf q = c.valueOf q

/-- What an instruction makes of memory and processor. -/
inductive Meaning (m : Memory) (c : Cpu) : Instruction → Memory → Cpu → Prop where
  | mov {w destination source m' c'} (hd : destination.HasWidth w) (hs : source.HasWidth w)
      (hstored : Stored w (source.valueIn m c w) destination m c m' c')
      (hflags : c'.flags = c.flags) (hip : c'.ip = c.ip) :
      Meaning m c (.pair .mov destination source) m' c'
  | add {w destination source m' c'} {result : Nat} (hd : destination.HasWidth w)
      (hs : source.HasWidth w)
      (hresult : result =
        (destination.toSource.valueIn m c w + source.valueIn m c w) % 2 ^ w.bits)
      (hstored : Stored w result destination m c m' c')
      (hflags : c'.flags = flagsOf w result) (hip : c'.ip = c.ip) :
      Meaning m c (.pair .add destination source) m' c'
  | sub {w destination source m' c'} {result : Nat} (hd : destination.HasWidth w)
      (hs : source.HasWidth w)
      (hresult : (result : Int) =
        ((destination.toSource.valueIn m c w : Int) - source.valueIn m c w) % 2 ^ w.bits)
      (hstored : Stored w result destination m c m' c')
      (hflags : c'.flags = flagsOf w result) (hip : c'.ip = c.ip) :
      Meaning m c (.pair .sub destination source) m' c'
  | cmp {w destination source} {result : Nat} (hd : destination.HasWidth w)
      (hs : source.HasWidth w)
      (hresult : (result : Int) =
        ((destination.toSource.valueIn m c w : Int) - source.valueIn m c w) % 2 ^ w.bits) :
      Meaning m c (.pair .cmp destination source) m { c with flags := flagsOf w result }
  | jneTaken {offset ip} (hzero : c.flags.zero = false)
      (hip : (UInt16.toNat ip : Int) = (c.ip.toNat + offset.toInt) % 65536) :
      Meaning m c (.jump .jne offset) m { c with ip := ip }
  | jneNotTaken {offset} (hzero : c.flags.zero = true) : Meaning m c (.jump .jne offset) m c

/-! ## The executor reads the values -/

/-- The executor adds up the registers that the address is the sum of. -/
theorem AddressBase.registers_eq_summands (base : AddressBase) :
    base.registers = base.summands := by
  cases base <;> rfl

namespace Cpu

theorem toNat_baseSum (c : Cpu) (base : AddressBase) :
    (c.baseSum base).toNat = (base.summands.map c.valueOf).sum % 65536 := by
  have hvalues : (base.summands.map c.read).map UInt16.toNat = base.summands.map c.valueOf := by
    rw [List.map_map]
    exact List.map_congr_left fun r _ => c.toNat_read r
  rw [baseSum, base.registers_eq_summands, toNat_foldl_add, hvalues, UInt16.toNat_zero,
    Nat.zero_add]

theorem effectiveAddress_eq (c : Cpu) (o : MemoryOperand) :
    c.effectiveAddress o = c.addressOf o := by
  cases o with
  | direct address => rfl
  | based base displacement =>
    -- the sum of the bases has wrapped already, which does not matter modulo 65536
    have hsum := toNat_add_signed (c.baseSum base) displacement
    rw [toNat_baseSum] at hsum
    rw [effectiveAddress, addressOf, ← UInt16.toNat_inj, UInt16.toNat_ofNat']
    omega

end Cpu

namespace Memory

theorem valueAt_lt (m : Memory) (w : Width) (address : UInt16) :
    m.valueAt w address < 2 ^ w.bits := by
  have hlow := (m.read address).toNat_lt
  have hhigh := (m.read (address + 1)).toNat_lt
  cases w with
  | byte => exact hlow
  | word =>
    show (m.read address).toNat + 256 * (m.read (address + 1)).toNat < 65536
    omega

theorem toNat_readWide (m : Memory) (w : Width) (address : UInt16) :
    (m.readWide w address).toNat = m.valueAt w address := by
  cases w with
  | byte => rfl
  | word =>
    rw [readWide, readWord, toNat_joined_bytes, valueAt]
    omega

end Memory

/-- A source of the width of the instruction has its value as it stands. -/
theorem toNat_sourceValue (m : Memory) (c : Cpu) {w : Width} {source : Source}
    (h : source.HasWidth w) : (sourceValue m c w source).toNat = source.valueIn m c w := by
  cases source with
  | register r =>
    obtain rfl := h
    rw [sourceValue, Width.toNat_truncate_of_lt, c.toNat_read, Source.valueIn]
    rw [c.toNat_read]
    exact c.valueOf_lt r
  | memory o =>
    rw [sourceValue, Width.toNat_truncate_of_lt, m.toNat_readWide, c.effectiveAddress_eq,
      Source.valueIn]
    rw [m.toNat_readWide]
    exact m.valueAt_lt w _
  | immediate imm =>
    obtain ⟨rfl, hfits⟩ := h
    -- an immediate that fits is cut twice to no effect
    rw [sourceValue, Immediate.read, Width.toNat_truncate_of_lt (Width.toNat_truncate_lt _ _),
      Width.toNat_truncate_of_lt hfits, Source.valueIn]

theorem Operand.hasWidth_toSource {w : Width} {operand : Operand} (h : operand.HasWidth w) :
    operand.toSource.HasWidth w := by
  cases operand with
  | register r => exact h
  | memory o => trivial

theorem toNat_sumOf (m : Memory) (c : Cpu) {w : Width} {destination : Operand} {source : Source}
    (hd : destination.HasWidth w) (hs : source.HasWidth w) :
    (sumOf m c destination source w).toNat =
      (destination.toSource.valueIn m c w + source.valueIn m c w) % 2 ^ w.bits := by
  rw [sumOf, Width.toNat_truncate_add, toNat_sourceValue m c (Operand.hasWidth_toSource hd),
    toNat_sourceValue m c hs]

theorem toNat_differenceOf (m : Memory) (c : Cpu) {w : Width} {destination : Operand}
    {source : Source} (hd : destination.HasWidth w) (hs : source.HasWidth w) :
    ((differenceOf m c destination source w).toNat : Int) =
      ((destination.toSource.valueIn m c w : Int) - source.valueIn m c w) % 2 ^ w.bits := by
  rw [differenceOf, Width.toNat_truncate_sub, toNat_sourceValue m c (Operand.hasWidth_toSource hd),
    toNat_sourceValue m c hs]

/-! ## The executor changes what it stores to -/

namespace Effect

theorem flags_onCpu (e : Effect) (c : Cpu) : (e.onCpu c).flags = e.flags.getD c.flags := by
  obtain ⟨flags, store, jump⟩ := e
  cases flags <;> cases jump <;> cases store with
  | none => rfl
  | some store =>
    cases store with
    | register r value => exact Cpu.flags_write ..
    | memory address w value => rfl

theorem ip_onCpu (e : Effect) (c : Cpu) : (e.onCpu c).ip = e.jump.getD c.ip := by
  obtain ⟨flags, store, jump⟩ := e
  cases jump with
  | some target => rfl
  | none =>
    cases flags <;> cases store with
    | none => rfl
    | some store =>
      cases store with
      | register r value => exact Cpu.ip_write ..
      | memory address w value => rfl

theorem valueOf_onCpu (e : Effect) (c : Cpu) (q : Register) :
    (e.onCpu c).valueOf q =
      match e.store with
      | some (.register r value) => (c.write r value).valueOf q
      | _ => c.valueOf q := by
  obtain ⟨flags, store, jump⟩ := e
  -- flags and jump touch no register, so only the store is left
  have hjump : ∀ c : Cpu, ((⟨none, none, jump⟩ : Effect).onCpu c).valueOf q = c.valueOf q := by
    intro c
    cases jump with
    | none => rfl
    | some target => exact c.valueOf_set_ip target q
  cases store with
  | none =>
    cases flags with
    | none => exact hjump c
    | some flags => exact (hjump _).trans (c.valueOf_set_flags flags q)
  | some store =>
    cases store with
    | register r value =>
      cases flags with
      | none => exact hjump _
      | some flags =>
        refine (hjump (({ c with flags := flags } : Cpu).write r value)).trans ?_
        rw [Cpu.write_set_flags, Cpu.valueOf_set_flags]
    | memory address w value =>
      cases flags with
      | none => exact hjump c
      | some flags => exact (hjump _).trans (c.valueOf_set_flags flags q)

end Effect

namespace Memory

theorem read_writeWord (m : Memory) (address other value : UInt16) :
    (m.writeWord address value).read other =
      if other = address + 1 then (value >>> 8).toUInt8
      else if other = address then value.toUInt8 else m.read other := by
  rw [writeWord, read_write, read_write]

theorem ne_add_one (address : UInt16) : address ≠ address + 1 := by
  have haddress := address.toNat_lt
  rw [Ne, ← UInt16.toNat_inj, UInt16.toNat_add, UInt16.toNat_one]
  omega

theorem valueAt_write (m : Memory) (address : UInt16) {value : UInt16} (h : value.toNat < 256) :
    (m.write address value.toUInt8).valueAt .byte address = value.toNat := by
  rw [valueAt, read_write_self, UInt16.toNat_toUInt8]
  exact Nat.mod_eq_of_lt h

theorem valueAt_writeWord (m : Memory) (address value : UInt16) :
    (m.writeWord address value).valueAt .word address = value.toNat := by
  have hvalue := value.toNat_lt
  rw [valueAt, read_writeWord, read_writeWord, if_neg (ne_add_one address), if_pos rfl, if_pos rfl,
    UInt16.toNat_toUInt8, UInt16.toNat_toUInt8, toNat_shiftRight_eight]
  omega

/-- Memories that agree on a value and outside of its cells are equal. -/
theorem eq_of_valueAt_eq {m n : Memory} {w : Width} {address : UInt16}
    (h : m.valueAt w address = n.valueAt w address)
    (houtside : ∀ other ∉ cells w address, m.read other = n.read other) : m = n := by
  refine ext_read fun other => ?_
  by_cases hother : other ∈ cells w address
  · cases w with
    | byte =>
      obtain rfl := List.mem_singleton.mp hother
      exact UInt8.toNat_inj.mp h
    | word =>
      have hlow := (m.read address).toNat_lt
      have hlow' := (n.read address).toNat_lt
      have hvalue : (m.read address).toNat + 256 * (m.read (address + 1)).toNat =
        (n.read address).toNat + 256 * (n.read (address + 1)).toNat := h
      -- a number below 65536 determines its two bytes
      rcases mem_cells_word.mp hother with rfl | rfl
      · exact UInt8.toNat_inj.mp (by omega)
      · exact UInt8.toNat_inj.mp (by omega)
  · exact houtside other hother

end Memory

/-- Carrying out a store changes the destination and nothing else. -/
theorem stored_storeTo (m : Memory) {c : Cpu} {e : Effect} {w : Width} {destination : Operand}
    {value : UInt16} (hd : destination.HasWidth w) (hvalue : value.toNat < 2 ^ w.bits)
    (he : e.store = some (storeTo c w value destination)) :
    Stored w value.toNat destination m c (e.onMemory m) (e.onCpu c) := by
  cases destination with
  | register r =>
    obtain rfl := hd
    have hwrite : ∀ q, (e.onCpu c).valueOf q = (c.write r value).valueOf q := by
      intro q
      rw [e.valueOf_onCpu, he]
      rfl
    refine ⟨?_, ?_, ?_⟩
    · rw [Effect.onMemory, he]
      rfl
    · rw [hwrite, c.valueOf_write_self, Nat.mod_eq_of_lt hvalue]
    · intro q hq
      rw [hwrite, c.valueOf_write_of_not_overlaps hq]
  | memory o =>
    have hregisters : ∀ q, (e.onCpu c).valueOf q = c.valueOf q := by
      intro q
      rw [e.valueOf_onCpu, he]
      rfl
    have hstore : e.store = some (.memory (c.addressOf o) w value) := by
      rw [he, storeTo, c.effectiveAddress_eq]
    cases w with
    | byte =>
      rw [Effect.onMemory, hstore]
      refine ⟨m.valueAt_write _ hvalue, ?_, hregisters⟩
      intro other hother
      exact m.read_write_of_ne _ fun h => hother (List.mem_singleton.mpr h)
    | word =>
      rw [Effect.onMemory, hstore]
      refine ⟨m.valueAt_writeWord _ _, ?_, hregisters⟩
      intro other hother
      have hne : other ≠ c.addressOf o ∧ other ≠ c.addressOf o + 1 :=
        not_or.mp fun h => hother (mem_cells_word.mpr h)
      show (m.writeWord _ value).read other = _
      rw [m.read_writeWord, if_neg hne.2, if_neg hne.1]

/-- A store leaves one memory and one register file only. -/
theorem Stored.unique {w : Width} {value : Nat} {destination : Operand} {m m₁ m₂ : Memory}
    {c c₁ c₂ : Cpu} (h₁ : Stored w value destination m c m₁ c₁)
    (h₂ : Stored w value destination m c m₂ c₂) (hflags : c₁.flags = c₂.flags)
    (hip : c₁.ip = c₂.ip) : m₁ = m₂ ∧ c₁ = c₂ := by
  cases destination with
  | register r =>
    obtain ⟨rfl, hvalue₁, hrest₁⟩ := h₁
    obtain ⟨rfl, hvalue₂, hrest₂⟩ := h₂
    -- the registers that overlap the destination are determined by it and the others
    refine ⟨rfl, Cpu.ext_valueOf ?_ hip hflags⟩
    exact Cpu.valueOf_eq_of_agree (hvalue₁.trans hvalue₂.symm) fun q hq =>
      (hrest₁ q hq).trans (hrest₂ q hq).symm
  | memory o =>
    obtain ⟨hvalue₁, hrest₁, hregisters₁⟩ := h₁
    obtain ⟨hvalue₂, hrest₂, hregisters₂⟩ := h₂
    constructor
    · exact Memory.eq_of_valueAt_eq (hvalue₁.trans hvalue₂.symm) fun other hother =>
        (hrest₁ other hother).trans (hrest₂ other hother).symm
    · exact Cpu.ext_valueOf (fun q => (hregisters₁ q).trans (hregisters₂ q).symm) hip hflags

/-! ## The executor computes the meaning -/

/-- The operations that can be executed. -/
def executable : List Operation := [.mov, .add, .sub, .cmp, .jne]

theorem executedWidth_eq {w : Width} {destination : Operand} {source : Source}
    (h : Matched destination source) (hd : destination.HasWidth w) (hs : source.HasWidth w) :
    (Operands.pair destination source).executedWidth = .ok w := by
  rw [Operands.executedWidth, h.width?_eq hd hs]

/-- An effect with a store has one outcome: the one in which the destination holds the value. -/
theorem execute_eq_of_stored {m m' : Memory} {c c' : Cpu} {i : Instruction} {e : Effect}
    {w : Width} {destination : Operand} {value : UInt16} (he : effect m c i = .ok e)
    (hstore : e.store = some (storeTo c w value destination)) (hjump : e.jump = none)
    (hd : destination.HasWidth w) (hvalue : value.toNat < 2 ^ w.bits)
    (hstored : Stored w value.toNat destination m c m' c')
    (hflags : c'.flags = e.flags.getD c.flags) (hip : c'.ip = c.ip) :
    execute m c i = .ok (m', c') := by
  have hflags' : (e.onCpu c).flags = c'.flags := (e.flags_onCpu c).trans hflags.symm
  have hip' : (e.onCpu c).ip = c'.ip := by
    rw [e.ip_onCpu, hjump, hip]
    rfl
  obtain ⟨rfl, rfl⟩ := (stored_storeTo m hd hvalue hstore).unique hstored hflags' hip'
  rw [execute, he]
  rfl

/-- The executor computes what the instruction means. -/
theorem Meaning.execute_eq {m m' : Memory} {c c' : Cpu} {i : Instruction}
    (h : Meaning m c i m' c') (hi : i.WellFormed) : execute m c i = .ok (m', c') := by
  cases h with
  | @mov w destination source m' c' hd hs hstored hflags hip =>
    have hw := executedWidth_eq hi.2 hd hs
    have he : effect m c (.pair .mov destination source) =
        .ok (moveEffect m c destination source w) := by
      rw [effect, Instruction.pair, hw]
      rfl
    -- the executor stores the word whose number is the value of the source
    have hvalue := toNat_sourceValue m c hs
    rw [← hvalue] at hstored
    exact execute_eq_of_stored he rfl rfl hd (Width.toNat_truncate_lt w _) hstored hflags hip
  | @add w destination source m' c' result hd hs hresult hstored hflags hip =>
    have hw := executedWidth_eq hi.2 hd hs
    have he : effect m c (.pair .add destination source) =
        .ok (arithmeticEffect c destination w (sumOf m c destination source w)) := by
      rw [effect, Instruction.pair, hw]
      rfl
    obtain rfl := hresult.trans (toNat_sumOf m c hd hs).symm
    refine execute_eq_of_stored he rfl rfl hd (Width.toNat_truncate_lt w _) hstored ?_ hip
    exact hflags.trans (Flags.ofResult_eq w _).symm
  | @sub w destination source m' c' result hd hs hresult hstored hflags hip =>
    have hw := executedWidth_eq hi.2 hd hs
    have he : effect m c (.pair .sub destination source) =
        .ok (arithmeticEffect c destination w (differenceOf m c destination source w)) := by
      rw [effect, Instruction.pair, hw]
      rfl
    obtain rfl := Int.ofNat.inj (hresult.trans (toNat_differenceOf m c hd hs).symm)
    refine execute_eq_of_stored he rfl rfl hd (Width.toNat_truncate_lt w _) hstored ?_ hip
    exact hflags.trans (Flags.ofResult_eq w _).symm
  | @cmp w destination source result hd hs hresult =>
    have hw := executedWidth_eq hi.2 hd hs
    have he : effect m c (.pair .cmp destination source) =
        .ok (compareEffect w (differenceOf m c destination source w)) := by
      rw [effect, Instruction.pair, hw]
      rfl
    obtain rfl := Int.ofNat.inj (hresult.trans (toNat_differenceOf m c hd hs).symm)
    rw [execute, he, ← Flags.ofResult_eq]
    rfl
  | @jneTaken offset ip hzero hip =>
    -- both instruction pointers are the same number modulo 65536
    have hsum := toNat_add_signed c.ip offset.toInt16
    rw [Int8.toInt_toInt16] at hsum
    obtain rfl := UInt16.toNat_inj.mp (Int.ofNat.inj (hip.trans hsum.symm))
    rw [execute, effect, Instruction.jump, hzero]
    rfl
  | @jneNotTaken offset hzero =>
    rw [execute, effect, Instruction.jump, hzero]
    rfl

/-- An arithmetic effect stores the result and sets its flags. -/
theorem exists_stored (m : Memory) (c : Cpu) {w : Width} {destination : Operand} {result : UInt16}
    (hd : destination.HasWidth w) (hresult : result.toNat < 2 ^ w.bits) :
    ∃ m' c', Stored w result.toNat destination m c m' c' ∧
      c'.flags = flagsOf w result.toNat ∧ c'.ip = c.ip := by
  have hstored := stored_storeTo m (e := arithmeticEffect c destination w result) hd hresult rfl
  refine ⟨_, _, hstored, ?_, Effect.ip_onCpu _ c⟩
  rw [Effect.flags_onCpu, ← Flags.ofResult_eq]
  rfl

/-- A jump on a clear zero flag has an outcome. -/
theorem exists_meaning_jne (m : Memory) (c : Cpu) (offset : Int8) :
    ∃ m' c', Meaning m c (.jump .jne offset) m' c' := by
  cases hzero : c.flags.zero with
  | true => exact ⟨m, c, .jneNotTaken hzero⟩
  | false =>
    have hsum := toNat_add_signed c.ip offset.toInt16
    rw [Int8.toInt_toInt16] at hsum
    exact ⟨m, _, .jneTaken hzero hsum⟩

/-- A well-formed instruction that can be executed has an outcome. -/
theorem exists_meaning (m : Memory) (c : Cpu) {i : Instruction} (hi : i.WellFormed)
    (hop : i.operation ∈ executable) : ∃ m' c', Meaning m c i m' c' := by
  obtain ⟨operation, operands⟩ := i
  cases operands with
  | relative offset =>
    have hjump : operation.isRelativeJump = true := hi
    have hmem : operation ∈ executable := hop
    cases operation with
    | jne => exact exists_meaning_jne m c offset
    | mov | add | sub | cmp => cases hjump
    | _ => exact absurd hmem (by decide)
  | pair destination source =>
    obtain ⟨hjump, hmatched⟩ := hi
    obtain ⟨w, -, hd, hs⟩ := hmatched.exists_width
    cases operation with
    | mov =>
      have hvalue : (sourceValue m c w source).toNat < 2 ^ w.bits := Width.toNat_truncate_lt w _
      have hstored := stored_storeTo m (e := moveEffect m c destination source w) hd hvalue rfl
      rw [toNat_sourceValue m c hs] at hstored
      exact ⟨_, _, .mov hd hs hstored (Effect.flags_onCpu _ c) (Effect.ip_onCpu _ c)⟩
    | add =>
      have hresult : (sumOf m c destination source w).toNat < 2 ^ w.bits :=
        Width.toNat_truncate_lt w _
      obtain ⟨m', c', hstored, hflags, hip⟩ := exists_stored m c hd hresult
      exact ⟨m', c', .add hd hs (toNat_sumOf m c hd hs) hstored hflags hip⟩
    | sub =>
      have hresult : (differenceOf m c destination source w).toNat < 2 ^ w.bits :=
        Width.toNat_truncate_lt w _
      obtain ⟨m', c', hstored, hflags, hip⟩ := exists_stored m c hd hresult
      exact ⟨m', c', .sub hd hs (toNat_differenceOf m c hd hs) hstored hflags hip⟩
    | cmp => exact ⟨m, _, .cmp hd hs (toNat_differenceOf m c hd hs)⟩
    | _ => cases hjump

theorem operation_mem_of_execute {m m' : Memory} {c c' : Cpu} {i : Instruction}
    (h : execute m c i = .ok (m', c')) : i.operation ∈ executable := by
  obtain ⟨operation, operands⟩ := i
  show operation ∈ executable
  cases operation with
  | mov | add | sub | cmp | jne => decide
  | _ => cases operands <;> cases h

/-- Memories, processors and instructions of the decoder: executing a move, an addition, a
subtraction, a comparison or a jump on a clear zero flag succeeds, and the outcome is what the
instruction means. -/
theorem execute_meaning (m : Memory) (c : Cpu) {i : Instruction} (h : i.Decodable) :
    (i.operation ∈ executable → ∃ m' c', execute m c i = .ok (m', c')) ∧
      ∀ m' c', execute m c i = .ok (m', c') ↔ Meaning m c i m' c' := by
  have hi : i.WellFormed := (Instruction.decodable_iff_wellFormed i).1 h
  constructor
  · intro hop
    obtain ⟨m', c', hmeaning⟩ := exists_meaning m c hi hop
    exact ⟨m', c', hmeaning.execute_eq hi⟩
  · intro m' c'
    constructor
    · intro hexec
      -- there is an outcome that the instruction means, and the executor has only one
      obtain ⟨m₁, c₁, hmeaning⟩ := exists_meaning m c hi (operation_mem_of_execute hexec)
      have hexec₁ := hmeaning.execute_eq hi
      rw [hexec, Except.ok.injEq, Prod.mk.injEq] at hexec₁
      obtain ⟨rfl, rfl⟩ := hexec₁
      exact hmeaning
    · intro hmeaning
      exact hmeaning.execute_eq hi

/-- Adding 200 to the high half 100 of `ax` leaves 44 there, and the low half as it is. -/
theorem execute_meaning_add_ah :
    let i := Instruction.pair .add (.register .ah) (.immediate (.ofByte 200))
    i.WellFormed ∧ i.operation ∈ executable ∧
      (∃ m' c', execute .zero { ax := 0x64FF } i = .ok (m', c')) ∧
      Meaning .zero { ax := 0x64FF } i .zero { ax := 0x2CFF } := by
  intro i
  have hi : i.WellFormed := by decide
  have hop : i.operation ∈ executable := by decide
  have hmeaning := execute_meaning .zero { ax := 0x64FF }
    ((Instruction.decodable_iff_wellFormed i).2 hi)
  exact ⟨hi, hop, hmeaning.1 hop, (hmeaning.2 _ _).1 rfl⟩

end Machine8086
