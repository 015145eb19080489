import Machine8086.Proofs.Checked.Simulator
import Machine8086.Proofs.Footprint
import Machine8086.Proofs.RegisterWrites

/-!
# Loading programs

A load takes effect on a range of addresses (`loadRange`), which may end at the top of memory but
does not go over it. It stores the program there and keeps all other bytes, makes the range the
extent, and moves the instruction pointer and no other register (`Simulator.IsLoad`). Two programs
at ranges that have no address in common make the same memory in both orders
(`Simulator.memory_of_loads`), so that neither damages the other. `load_writes_program` puts this
together with the condition for a load to succeed, the count it returns, and what resetting the
processor does after it.
-/

namespace Machine8086

/-! ## The range of a program -/

/-- The addresses of a program that is loaded at `start`. -/
def loadRange (start : UInt16) (program : List UInt8) : Set Nat :=
  Set.Ico start.toNat (start.toNat + program.length)

section

variable {start address : UInt16} {program : List UInt8}

/-- Outside of the range of a program that fits, the distance from the start is no place in the
program. -/
theorem length_le_of_not_mem_loadRange (hspace : start.toNat + program.length ≤ addressSpace)
    (h : address.toNat ∉ loadRange start program) : program.length ≤ (address - start).toNat := by
  have haddress := address.toNat_lt
  have htop : addressSpace = 65536 := rfl
  rw [loadRange, Set.mem_Ico] at h
  rw [UInt16.toNat_sub]
  omega

/-- An address in the range is that of a byte of the program. -/
theorem exists_of_mem_loadRange (h : address.toNat ∈ loadRange start program) :
    ∃ i < program.length, address = start + UInt16.ofNat i := by
  rw [loadRange, Set.mem_Ico] at h
  refine ⟨address.toNat - start.toNat, by omega, ?_⟩
  rw [← UInt16.toNat_sub_of_le _ _ h.1, UInt16.ofNat_toNat, UInt16.add_comm,
    UInt16.sub_add_cancel]

end

namespace Memory

/-- Bytes outside of the range that is written stay. -/
theorem read_writeBytes_of_not_mem (m : Memory) {start address : UInt16} {program : List UInt8}
    (hspace : start.toNat + program.length ≤ addressSpace)
    (h : address.toNat ∉ loadRange start program) :
    (m.writeBytes start program).read address = m.read address := by
  have hlength : program.length ≤ addressSpace := by omega
  have hnone := List.getElem?_eq_none (length_le_of_not_mem_loadRange hspace h)
  rw [m.read_writeBytes _ _ hlength, hnone, Option.getD_none]

end Memory

/-! ## What a load does -/

/-- The second simulator is the first with a program loaded: the bytes of the program from its start
on and all others as before, its extent, the instruction pointer at the start, and the other
registers and the flags as before. -/
structure Simulator.IsLoad (s : Simulator) (program : List UInt8) (start : UInt16) (t : Simulator) :
    Prop where
  byte : ∀ i (h : i < program.length), t.memory.read (start + UInt16.ofNat i) = program[i]
  other : ∀ address : UInt16, address.toNat ∉ loadRange start program →
    t.memory.read address = s.memory.read address
  programStart : t.programStart = start
  programEnd : t.programEnd = start.toNat + program.length
  ip : t.cpu.ip = start
  register : ∀ r, t.cpu.read r = s.cpu.read r
  flags : t.cpu.flags = s.cpu.flags

namespace Simulator

variable {s t u : Simulator} {program : List UInt8} {start : UInt16}

theorem isLoad_of_load (h : s.load program start = .ok t) : s.IsLoad program start t := by
  obtain ⟨hspace, rfl⟩ := (load_eq_ok_iff ..).1 h
  have hlength : program.length ≤ addressSpace := by omega
  exact {
    byte := (s.memory.stores_writeBytes start hlength).stored
    other := fun address => s.memory.read_writeBytes_of_not_mem hspace
    programStart := rfl
    programEnd := rfl
    ip := rfl
    register := fun r => by cases r <;> rfl
    flags := rfl }

/-- Nothing is left open about what a load does. -/
theorem IsLoad.unique (ht : s.IsLoad program start t) (hu : s.IsLoad program start u) : t = u := by
  have hmemory : t.memory = u.memory := by
    refine Memory.ext_read fun address => ?_
    by_cases hmem : address.toNat ∈ loadRange start program
    · obtain ⟨i, hi, rfl⟩ := exists_of_mem_loadRange hmem
      rw [ht.byte i hi, hu.byte i hi]
    · rw [ht.other address hmem, hu.other address hmem]
  have hcpu : t.cpu = u.cpu :=
    Cpu.ext_read_whole (fun q => (ht.register q.whole).trans (hu.register q.whole).symm)
      (ht.ip.trans hu.ip.symm) (ht.flags.trans hu.flags.symm)
  have hend := ht.programEnd.trans hu.programEnd.symm
  have hstart := ht.programStart.trans hu.programStart.symm
  cases t
  cases u
  exact (Simulator.mk.injEq ..).mpr ⟨hmemory, hcpu, hstart, hend⟩

theorem exists_load (s : Simulator) (h : start.toNat + program.length ≤ addressSpace) :
    ∃ t, s.load program start = .ok t :=
  ⟨_, (load_eq_ok_iff ..).2 ⟨h, rfl⟩⟩

theorem load_eq_ok_iff_isLoad :
    s.load program start = .ok t ↔
      start.toNat + program.length ≤ addressSpace ∧ s.IsLoad program start t := by
  constructor
  · intro h
    exact ⟨((load_eq_ok_iff ..).1 h).1, isLoad_of_load h⟩
  · rintro ⟨hspace, hload⟩
    obtain ⟨u, hu⟩ := s.exists_load hspace
    rw [hu, (isLoad_of_load hu).unique hload]

theorem load_eq_error (s : Simulator) (h : addressSpace < start.toNat + program.length) :
    s.load program start = .error ⟨start, program.length⟩ := by
  rw [load, Memory.load, if_neg (Nat.not_le.2 h)]
  rfl

theorem resetCpu_of_load (h : s.load program start = .ok t) :
    t.resetCpu = { t with cpu := { ip := start } } := by
  rw [resetCpu, (isLoad_of_load h).programStart]

/-! ## Two programs -/

section

variable {v w : Simulator} {first second : List UInt8} {a b : UInt16}

/-- Programs at ranges that have no address in common make the same memory in both orders. -/
theorem memory_of_loads (hdisjoint : Disjoint (loadRange a first) (loadRange b second))
    (ht : s.load first a = .ok t) (hu : t.load second b = .ok u)
    (hv : s.load second b = .ok v) (hw : v.load first a = .ok w) : w.memory = u.memory := by
  obtain ⟨hfirst, rfl⟩ := (load_eq_ok_iff ..).1 ht
  obtain ⟨hsecond, rfl⟩ := (load_eq_ok_iff ..).1 hv
  obtain ⟨-, rfl⟩ := (load_eq_ok_iff ..).1 hu
  obtain ⟨-, rfl⟩ := (load_eq_ok_iff ..).1 hw
  refine s.memory.writeBytes_comm (by omega) (by omega) fun address => ?_
  by_cases hmem : address.toNat ∈ loadRange b second
  · exact .inr (length_le_of_not_mem_loadRange hfirst (hdisjoint.notMem_of_mem_right hmem))
  · exact .inl (length_le_of_not_mem_loadRange hsecond hmem)

/-- After two loads the bytes outside of both ranges are as before. -/
theorem read_of_loads (ht : s.load first a = .ok t) (hu : t.load second b = .ok u)
    {address : UInt16} (hfirst : address.toNat ∉ loadRange a first)
    (hsecond : address.toNat ∉ loadRange b second) :
    u.memory.read address = s.memory.read address :=
  ((isLoad_of_load hu).other address hsecond).trans ((isLoad_of_load ht).other address hfirst)

end

end Simulator

/-! ## The conclusion -/

/-- A load succeeds exactly if the program ends within the address space, and returns its length.
Then the simulator is as before but for the bytes of the program, its extent and the instruction
pointer, and resetting the processor clears all registers and flags and sets the instruction pointer
to the start. A load that fails changes nothing. Two programs at ranges that have no address in
common are both there after they are loaded one after the other, in either order, with all other
bytes as before; resetting the processor sets the instruction pointer to the start of the one that
was loaded last. -/
theorem load_writes_program (s : Simulator) :
    (∀ (program : List UInt8) (start : UInt16),
      ((∃ t, s.load program start = .ok t) ↔ start.toNat + program.length ≤ 65536) ∧
      (∀ t, s.load program start = .ok t ↔
        start.toNat + program.length ≤ 65536 ∧ s.IsLoad program start t) ∧
      (∀ t, s.load program start = .ok t →
        (Checked.load program start).exec s = .ok (.ok program.length, t) ∧
          t.resetCpu = { t with cpu := { ip := start } }) ∧
      (65536 < start.toNat + program.length →
        s.load program start = .error ⟨start, program.length⟩ ∧
          (Checked.load program start).exec s = .ok (.error ⟨start, program.length⟩, s))) ∧
    ∀ (first second : List UInt8) (a b : UInt16),
      a.toNat + first.length ≤ 65536 → b.toNat + second.length ≤ 65536 →
      Disjoint (loadRange a first) (loadRange b second) →
      ∃ t u v w, s.load first a = .ok t ∧ t.load second b = .ok u ∧
        s.load second b = .ok v ∧ v.load first a = .ok w ∧ w.memory = u.memory ∧
        (∀ i (h : i < first.length), u.memory.read (a + UInt16.ofNat i) = first[i]) ∧
        (∀ i (h : i < second.length), u.memory.read (b + UInt16.ofNat i) = second[i]) ∧
        (∀ address : UInt16, address.toNat ∉ loadRange a first →
          address.toNat ∉ loadRange b second → u.memory.read address = s.memory.read address) ∧
        u.resetCpu = { u with cpu := { ip := b } } ∧
        w.resetCpu = { w with cpu := { ip := a } } := by
  constructor
  · intro program start
    have hexec := Checked.exec_load program start s
    refine ⟨?_, fun t => Simulator.load_eq_ok_iff_isLoad, ?_, ?_⟩
    · constructor
      · rintro ⟨t, ht⟩
        exact ((Simulator.load_eq_ok_iff ..).1 ht).1
      · exact s.exists_load
    · intro t ht
      rw [ht] at hexec
      exact ⟨hexec, Simulator.resetCpu_of_load ht⟩
    · intro hover
      have herror := s.load_eq_error hover
      rw [herror] at hexec
      exact ⟨herror, hexec⟩
  · intro first second a b hfirst hsecond hdisjoint
    obtain ⟨t, ht⟩ := s.exists_load hfirst
    obtain ⟨u, hu⟩ := t.exists_load hsecond
    obtain ⟨v, hv⟩ := s.exists_load hsecond
    obtain ⟨w, hw⟩ := v.exists_load hfirst
    have hmemory := Simulator.memory_of_loads hdisjoint ht hu hv hw
    refine ⟨t, u, v, w, ht, hu, hv, hw, hmemory, ?_, (Simulator.isLoad_of_load hu).byte,
      fun address => Simulator.read_of_loads ht hu, Simulator.resetCpu_of_load hu,
      Simulator.resetCpu_of_load hw⟩
    -- the first program is the one loaded last in the other order
    rw [← hmemory]
    exact (Simulator.isLoad_of_load hw).byte

/-- Two programs side by side, of which the second ends at the top of memory. One more byte there is
too many. -/
theorem load_writes_program_top :
    let s : Simulator := { cpu := { ax := 5, ip := 7, flags := { zero := true } } }
    (∃ t u, (Checked.load [0xB8, 0x05, 0x00] 0xFFFB).exec s = .ok (.ok 3, t) ∧
      t.load [0x89, 0xD9] 0xFFFE = .ok u ∧ u.memory.read 0xFFFD = 0 ∧
      u.memory.read 0xFFFF = 0xD9 ∧ u.memory.read 0 = 0 ∧
      u.resetCpu = { u with cpu := { ip := 0xFFFE } }) ∧
    s.load [0x89, 0xD9, 0x00] 0xFFFE = .error ⟨0xFFFE, 3⟩ := by
  intro s
  obtain ⟨hloads, htwo⟩ := load_writes_program s
  have hdisjoint : Disjoint (loadRange 0xFFFB [0xB8, 0x05, 0x00]) (loadRange 0xFFFE [0x89, 0xD9]) :=
    Set.Ico_disjoint_Ico.2 (by decide)
  obtain ⟨t, u, v, w, ht, hu, -, -, -, hfirst, hsecond, hother, hreset, -⟩ :=
    htwo _ _ _ _ (by decide) (by decide) hdisjoint
  obtain ⟨-, -, hreturns, -⟩ := hloads [0xB8, 0x05, 0x00] 0xFFFB
  obtain ⟨-, -, -, hrefused⟩ := hloads [0x89, 0xD9, 0x00] 0xFFFE
  have hzero : ∀ length start, 0 < start → 0 ∉ Set.Ico start (start + length) := by
    intro length start hstart hmem
    exact Nat.not_lt.2 (Set.mem_Ico.1 hmem).1 hstart
  refine ⟨⟨t, u, (hreturns t ht).1, hu, hfirst 2 (by decide), hsecond 1 (by decide), ?_, hreset⟩,
    (hrefused (by decide)).1⟩
  exact (hother 0 (hzero _ _ (by decide)) (hzero _ _ (by decide))).trans (Memory.read_zero 0)

end Machine8086
