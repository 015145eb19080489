import Machine8086.Proofs.Reassembly
import Machine8086.Proofs.RunLimit

/-!
# The store loop

A program of sixteen bytes (`StoreLoop.program`) that stores a count word by word while it counts
down: after `mov cx, count` and `mov bx, base` the loop `mov [bx], cx`, `add bx, 2`, `sub cx, 1`
and `jne $-8` goes round until `cx` is zero. The invariant of the loop is that the program still
stands at the bottom of memory; as no store reaches it, the same four instructions are decoded in
every round. One round takes four steps and stores one word (`StoreLoop.takes_round`). By induction
on the count the rounds write the numbers from the count down to one (`StoreLoop.takes_rounds`),
where no later round writes over an earlier one, as the words do not wrap around
(`StoreLoop.CountsDown.cons`). `StoreLoop.run_counts_down` puts loading, both moves, the rounds and
the end of the run together.
-/

namespace Machine8086

/-! ## Steps of a run, counted -/

namespace Simulator

variable {config : RunConfig} {s middle final : Simulator} {m n : Nat}

/-- A run comes from one simulator to another in so many steps. -/
def Takes (config : RunConfig) (n : Nat) (s final : Simulator) : Prop :=
  ∃ steps, steps.length = n ∧ s.Path config steps final

theorem Takes.trans (h : s.Takes config m middle) (h' : middle.Takes config n final) :
    s.Takes config (m + n) final := by
  obtain ⟨before, rfl, hbefore⟩ := h
  obtain ⟨after, rfl, hafter⟩ := h'
  exact ⟨before ++ after, List.length_append, hbefore.append hafter⟩

/-- An instruction of the program that is executed is one step of the run. -/
theorem Takes.of_execute {d : Decoded} {memory : Memory} {cpu : Cpu}
    (hestimate : config.estimateClocks = false) (hstart : s.programStart.toNat ≤ s.cpu.ip.toNat)
    (hdecode : decode s.memory s.cpu.ip s.programEnd = .ok d)
    (hexecute : execute s.memory { s.cpu with ip := d.next } d.instruction = .ok (memory, cpu)) :
    s.Takes config 1 { s with memory, cpu } := by
  have hend := decode_end_le hdecode
  have hsize := (decode_eq_ok hdecode).2
  have hin : s.inProgram = true := by
    rw [inProgram_iff]
    omega
  obtain ⟨step, hstep, -, hcommit⟩ := exists_isStep_of_execute hdecode hexecute
  exact ⟨[step], rfl, .cons (.of_isStep hestimate hin hstep) (hcommit ▸ .nil _)⟩

end Simulator

/-- Where the bytes of a program stand in memory, an encoding among them is decoded. -/
theorem decode_of_readBytes {m : Memory} {start : UInt16} {before bytes after : List UInt8}
    {i : Instruction} {stop : Nat}
    (hstop : start.toNat + (before ++ (bytes ++ after)).length = stop) (hspace : stop ≤ addressSpace)
    (hread : m.readBytes start (before ++ (bytes ++ after)).length = before ++ (bytes ++ after))
    (hencodes : Encodes bytes i) :
    decode m (start + UInt16.ofNat before.length) stop =
      .ok ⟨start + UInt16.ofNat before.length, bytes.length, i⟩ := by
  have hlength := hencodes.length_le
  have htop : addressSpace = 65536 := rfl
  rw [List.length_append, List.length_append] at hstop
  have haddress : (start + UInt16.ofNat before.length).toNat = start.toNat + before.length := by
    rw [UInt16.toNat_add, UInt16.toNat_ofNat']
    omega
  rw [List.length_append, Memory.readBytes_add] at hread
  have hrest := List.append_inj_right hread (Memory.length_readBytes ..)
  rw [decode_eq_ok_iff, haddress]
  refine ⟨rfl, Nat.le_min.2 ?_, (Memory.readBytes_length_of_append hrest).symm ▸ hencodes⟩
  dsimp only
  omega

namespace StoreLoop

/-! ## The program -/

/-- The encodings of the program with their instructions. -/
def blocks (count base : UInt16) : List (List UInt8 × Instruction) :=
  [(0xB9 :: wordBytes count, .pair .mov (.register .cx) (.immediate (.ofWord count))),
    (0xBB :: wordBytes base, .pair .mov (.register .bx) (.immediate (.ofWord base))),
    ([0x89, 0x0F], .pair .mov (.memory (.based .bx 0)) (.register .cx)),
    ([0x83, 0xC3, 0x02], .pair .add (.register .bx) (.immediate (.ofWord 2))),
    ([0x83, 0xE9, 0x01], .pair .sub (.register .cx) (.immediate (.ofWord 1))),
    ([0x75, 0xF6], .jump .jne (-10))]

/-- The sixteen bytes of the program. -/
def program (count base : UInt16) : List UInt8 := (blocks count base).flatMap Prod.fst

variable {count base : UInt16}

theorem encodes_blocks : ∀ block ∈ blocks count base, Encodes block.1 block.2 := by
  simp only [blocks, List.forall_mem_cons]
  refine ⟨?_, ?_, ?_, ?_, ?_, ?_, List.forall_mem_nil _⟩
  · exact .movImmediateToRegister .cx (.word count)
  · exact .movImmediateToRegister .bx (.word base)
  · exact .registerPair .mov false .cx (.noDisplacement .word .bx (by decide))
  · exact @Encodes.arithmeticImmediate .add 0 rfl _ _ _ _ _ _ _ _ (.register .bx) (.extended 2)
  · exact @Encodes.arithmeticImmediate .sub 5 rfl _ _ _ _ _ _ _ _ (.register .cx) (.extended 1)
  · exact @Encodes.conditionalJump .jne 5 rfl (-10)

/-- The program stands at the bottom of memory. -/
def InPlace (count base : UInt16) (m : Memory) : Prop :=
  m.readBytes 0 16 = program count base

/-- Each instruction is decoded where its encoding stands in the program. -/
theorem InPlace.decode_eq {m : Memory} (h : InPlace count base m) (k : Nat)
    {block : List UInt8 × Instruction} (hk : (blocks count base)[k]? = some block) :
    let address := UInt16.ofNat (((blocks count base).take k).flatMap Prod.fst).length
    decode m address 16 = .ok ⟨address, block.1.length, block.2⟩ := by
  obtain ⟨hlt, hblock⟩ := List.getElem?_eq_some_iff.1 hk
  have hprogram : program count base =
      ((blocks count base).take k).flatMap Prod.fst ++
        (block.1 ++ ((blocks count base).drop (k + 1)).flatMap Prod.fst) := by
    rw [← List.flatMap_cons, ← hblock, ← List.drop_eq_getElem_cons hlt, ← List.flatMap_append,
      List.take_append_drop, program]
  have hlength : (program count base).length = 16 := rfl
  rw [InPlace, ← hlength, hprogram] at h
  rw [hprogram] at hlength
  have hencodes := encodes_blocks block (List.mem_of_getElem? hk)
  have hdecode := decode_of_readBytes (Nat.zero_add _) (hlength ▸ by decide) h hencodes
  rwa [UInt16.zero_add, hlength] at hdecode

/-- A word at an address behind the program does not reach it. -/
theorem InPlace.writeWord {m : Memory} (h : InPlace count base m) {address : UInt16}
    (haddress : 16 ≤ address.toNat) (htop : address.toNat + 2 ≤ 65536) (value : UInt16) :
    InPlace count base (m.writeWord address value) := by
  rw [InPlace, ← h]
  refine Memory.readBytes_congr fun i hi => ?_
  have hbyte : (0 + UInt16.ofNat i).toNat = i := by
    rw [UInt16.zero_add, UInt16.toNat_ofNat']
    omega
  rw [m.read_writeWord, if_neg, if_neg]
  · intro he
    rw [he] at hbyte
    omega
  · intro he
    rw [he, UInt16.toNat_add, UInt16.toNat_one] at hbyte
    omega

/-! ## What the instructions do -/

section

variable (m : Memory) (c : Cpu) {r : Register} (value : UInt16)

theorem executedWidth_word (hr : r.width = .word) :
    (Operands.pair (.register r) (.immediate (.ofWord value))).executedWidth = .ok .word :=
  congrArg Except.ok hr

theorem execute_mov_word (hr : r.width = .word) :
    execute m c (.pair .mov (.register r) (.immediate (.ofWord value))) =
      .ok (m, c.write r value) := by
  rw [execute, effect, Instruction.pair, executedWidth_word value hr]
  show Except.ok (m, c.write r (Width.word.truncate (Width.word.truncate value))) = _
  rw [Width.truncate_word, Width.truncate_word]

theorem execute_store_cx :
    execute m c (.pair .mov (.memory (.based .bx 0)) (.register .cx)) =
      .ok (m.writeWord c.bx c.cx, c) := by
  show Except.ok (m.writeWord (0 + c.bx + 0) (Width.word.truncate c.cx), c) = _
  rw [Width.truncate_word, UInt16.zero_add, UInt16.add_zero]

theorem execute_add_word (hr : r.width = .word) :
    execute m c (.pair .add (.register r) (.immediate (.ofWord value))) =
      .ok (m, ({ c with flags := .ofResult .word (c.read r + value) } : Cpu).write r
        (c.read r + value)) := by
  have hsum : sumOf m c (.register r) (.immediate (.ofWord value)) .word = c.read r + value := by
    simp only [sumOf, sourceValue, Operand.toSource, Immediate.read, Immediate.ofWord,
      Width.truncate_word]
  rw [execute, effect, Instruction.pair, executedWidth_word value hr, ← hsum]
  rfl

theorem execute_sub_word (hr : r.width = .word) :
    execute m c (.pair .sub (.register r) (.immediate (.ofWord value))) =
      .ok (m, ({ c with flags := .ofResult .word (c.read r - value) } : Cpu).write r
        (c.read r - value)) := by
  have hdifference :
      differenceOf m c (.register r) (.immediate (.ofWord value)) .word = c.read r - value := by
    simp only [differenceOf, sourceValue, Operand.toSource, Immediate.read, Immediate.ofWord,
      Width.truncate_word]
  rw [execute, effect, Instruction.pair, executedWidth_word value hr, ← hdifference]
  rfl

/-- The jump goes back to the loop, unless the flags are those of a result that is zero. -/
theorem execute_jne_back (hip : c.ip = 16) (hflags : c.flags = .ofResult .word value) :
    execute m c (.jump .jne (-10)) = .ok (m, { c with ip := if value = 0 then 16 else 6 }) := by
  obtain ⟨ax, bx, cx, dx, sp, bp, si, di, ip, flags⟩ := c
  dsimp only at hip hflags
  subst hip hflags
  by_cases hzero : value = 0
  · subst hzero
    rfl
  · have hback : (16 : UInt16) + (-10 : Int8).toInt16.toUInt16 = 6 := by decide
    rw [execute, effect, Instruction.jump, Flags.ofResult, beq_false_of_ne hzero, if_neg hzero,
      ← hback]
    rfl

end

/-! ## One round -/

/-- The simulator with the program at the bottom of memory and no other registers in use. -/
def state (m : Memory) (bx cx ip : UInt16) (flags : Flags) : Simulator :=
  { memory := m, cpu := { bx, cx, ip, flags }, programStart := 0, programEnd := 16 }

section

variable {config : RunConfig} {m : Memory} {bx cx : UInt16} (flags : Flags)

theorem takes_setup (hestimate : config.estimateClocks = false) (h : InPlace count base m) :
    (state m bx cx 0 flags).Takes config 2 (state m base count 6 flags) := by
  have hmovCx : (state m bx cx 0 flags).Takes config 1 (state m bx count 3 flags) :=
    .of_execute hestimate (Nat.zero_le _) (h.decode_eq 0 rfl) (execute_mov_word _ _ _ rfl)
  have hmovBx : (state m bx count 3 flags).Takes config 1 (state m base count 6 flags) :=
    .of_execute hestimate (Nat.zero_le _) (h.decode_eq 1 rfl) (execute_mov_word _ _ _ rfl)
  exact hmovCx.trans hmovBx

/-- A round stores the word of `cx` at `bx` and goes back to its start, unless `cx` has become
zero. -/
theorem takes_round (hestimate : config.estimateClocks = false) (h : InPlace count base m)
    (hstored : InPlace count base (m.writeWord bx cx)) :
    (state m bx cx 6 flags).Takes config 4 (state (m.writeWord bx cx) (bx + 2) (cx - 1)
      (if cx - 1 = 0 then 16 else 6) (.ofResult .word (cx - 1))) := by
  let m' := m.writeWord bx cx
  have hstore : (state m bx cx 6 flags).Takes config 1 (state m' bx cx 8 flags) :=
    .of_execute hestimate (Nat.zero_le _) (h.decode_eq 2 rfl) (execute_store_cx _ _)
  have hadd : (state m' bx cx 8 flags).Takes config 1
      (state m' (bx + 2) cx 11 (.ofResult .word (bx + 2))) :=
    .of_execute hestimate (Nat.zero_le _) (hstored.decode_eq 3 rfl) (execute_add_word _ _ _ rfl)
  have hsub : (state m' (bx + 2) cx 11 (.ofResult .word (bx + 2))).Takes config 1
      (state m' (bx + 2) (cx - 1) 14 (.ofResult .word (cx - 1))) :=
    .of_execute hestimate (Nat.zero_le _) (hstored.decode_eq 4 rfl) (execute_sub_word _ _ _ rfl)
  have hjump : (state m' (bx + 2) (cx - 1) 14 (.ofResult .word (cx - 1))).Takes config 1
      (state m' (bx + 2) (cx - 1) (if cx - 1 = 0 then 16 else 6) (.ofResult .word (cx - 1))) :=
    .of_execute hestimate (Nat.zero_le _) (hstored.decode_eq 5 rfl)
      (execute_jne_back _ _ _ rfl rfl)
  exact ((hstore.trans hadd).trans hsub).trans hjump

end

/-! ## All rounds -/

theorem toNat_eq_sub_one_add_one (hcount : count ≠ 0) : count.toNat = (count - 1).toNat + 1 := by
  have hne : count.toNat ≠ 0 := fun h => hcount (UInt16.toNat_inj.1 h)
  have hone : (1 : UInt16) ≤ count := UInt16.le_iff_toNat_le.2 (Nat.one_le_iff_ne_zero.2 hne)
  rw [UInt16.toNat_sub_of_le _ _ hone, UInt16.toNat_one]
  omega

theorem toNat_add_two (a : UInt16) : (a + 2).toNat = (a.toNat + 2) % 65536 :=
  UInt16.toNat_add a 2

/-- From an address on, memory holds the numbers from a count down to one, and it is otherwise as
before. -/
structure CountsDown (m : Memory) (address count : UInt16) (m' : Memory) : Prop where
  word : ∀ i < count.toNat,
    m'.readWord (address + UInt16.ofNat (2 * i)) = count - UInt16.ofNat i
  other : ∀ a : UInt16, (∀ i < 2 * count.toNat, a ≠ address + UInt16.ofNat i) →
    m'.read a = m.read a

namespace CountsDown

variable {m m' : Memory} {address count : UInt16}

theorem zero (m : Memory) (address : UInt16) : CountsDown m address 0 m :=
  ⟨fun _ hi => absurd hi (Nat.not_lt_zero _), fun _ _ => rfl⟩

/-- The numbers behind the first word leave it as it was stored, as they do not wrap around. -/
theorem cons (hcount : count ≠ 0) (htop : address.toNat + 2 * count.toNat ≤ 65536)
    (h : CountsDown (m.writeWord address count) (address + 2) (count - 1) m') :
    CountsDown m address count m' := by
  have hpred := toNat_eq_sub_one_add_one hcount
  have hkept : ∀ a : UInt16, a.toNat < address.toNat + 2 →
      m'.read a = (m.writeWord address count).read a := by
    intro a hlt
    refine h.other a fun i hi he => ?_
    rw [he, UInt16.toNat_add, toNat_add_two, UInt16.toNat_ofNat'] at hlt
    omega
  have hnext : (address + 1).toNat = address.toNat + 1 := by
    rw [UInt16.toNat_add, UInt16.toNat_one]
    omega
  constructor
  · intro i hi
    cases i with
    | zero =>
      have hfirst : m'.readWord address = (m.writeWord address count).readWord address := by
        rw [Memory.readWord, Memory.readWord, hkept address (by omega),
          hkept (address + 1) (by omega)]
      have hword : (m.writeWord address count).readWord address = count :=
        UInt16.toNat_inj.1 ((Memory.toNat_readWide _ .word _).trans (m.valueAt_writeWord ..))
      have haddress : address + UInt16.ofNat (2 * 0) = address := UInt16.add_zero address
      have hcountZero : count - UInt16.ofNat 0 = count := UInt16.sub_zero count
      rw [haddress, hcountZero, hfirst, hword]
    | succ i =>
      have hword := h.word i (by omega)
      have haddress :
          address + UInt16.ofNat (2 * (i + 1)) = address + 2 + UInt16.ofNat (2 * i) := by
        rw [Nat.mul_add, UInt16.ofNat_add, UInt16.add_assoc, UInt16.add_comm (UInt16.ofNat (2 * i))]
        rfl
      have hvalue : count - UInt16.ofNat (i + 1) = count - 1 - UInt16.ofNat i := by
        rw [UInt16.ofNat_add]
        grind
      rw [haddress, hvalue, hword]
  · intro a ha
    have hlow : a ≠ address + 0 := ha 0 (by omega)
    have hhigh : a ≠ address + 1 := ha 1 (by omega)
    rw [UInt16.add_zero] at hlow
    rw [h.other a, m.read_writeWord, if_neg hhigh, if_neg hlow]
    intro i hi
    have hi' := ha (i + 2) (by omega)
    rwa [Nat.add_comm, UInt16.ofNat_add, ← UInt16.add_assoc] at hi'

end CountsDown

/-- The rounds of the loop count down to zero and leave the program at its end. -/
theorem takes_rounds {config : RunConfig} (hestimate : config.estimateClocks = false) {m : Memory}
    {bx cx : UInt16} (flags : Flags) (h : InPlace count base m) (hcx : cx ≠ 0)
    (hbx : 16 ≤ bx.toNat) (htop : bx.toNat + 2 * cx.toNat ≤ 65536) :
    ∃ m', (state m bx cx 6 flags).Takes config (4 * cx.toNat)
        (state m' (bx + 2 * cx) 0 16 { zero := true }) ∧ CountsDown m bx cx m' := by
  obtain ⟨n, hn⟩ : ∃ n, cx.toNat = n + 1 := ⟨_, toNat_eq_sub_one_add_one hcx⟩
  induction n generalizing m bx cx flags with
  | zero =>
    obtain rfl : cx = 1 := UInt16.toNat_inj.1 hn
    have hround := takes_round flags hestimate h (h.writeWord hbx htop 1)
    exact ⟨_, hround, .cons hcx htop (.zero _ _)⟩
  | succ n ih =>
    have hpred := toNat_eq_sub_one_add_one hcx
    have hcx' : cx - 1 ≠ 0 := by
      intro hzero
      rw [hzero, UInt16.toNat_zero] at hpred
      omega
    have hbx' : (bx + 2).toNat = bx.toNat + 2 := by
      rw [toNat_add_two]
      omega
    have hstored := h.writeWord hbx (by omega) cx
    have hround := takes_round flags hestimate h hstored
    rw [if_neg hcx'] at hround
    have hbehind : 16 ≤ (bx + 2).toNat := by omega
    obtain ⟨m', hrest, hcounts⟩ :=
      ih (.ofResult .word (cx - 1)) hstored hcx' hbehind (by omega) (by omega)
    have hsteps : 4 + 4 * (cx - 1).toNat = 4 * cx.toNat := by omega
    have hend : bx + 2 + 2 * (cx - 1) = bx + 2 * cx := by grind
    have hall := hround.trans hrest
    rw [hsteps, hend] at hall
    exact ⟨m', hall, hcounts.cons hcx htop⟩

/-- Addresses that go on from a first one and are all behind the program do not wrap around. -/
theorem bounds_of_behind {k : Nat} (hk : 0 < k)
    (h : ∀ i < k, 16 ≤ (base + UInt16.ofNat i).toNat) :
    16 ≤ base.toNat ∧ base.toNat + k ≤ 65536 := by
  have hbyte : ∀ i < k, 16 ≤ (base.toNat + i % 65536) % 65536 := by
    intro i hi
    have hi' := h i hi
    rwa [UInt16.toNat_add, UInt16.toNat_ofNat'] at hi'
  have hbase := base.toNat_lt
  have hfirst := hbyte 0 hk
  refine ⟨by omega, ?_⟩
  by_contra hover
  -- the address 0 would be among them
  have hwrapped := hbyte (65536 - base.toNat) (by omega)
  omega

/-! ## The whole run -/

/-- For every count but zero and every base from which the words do not reach the program, the
program, loaded at 0 into a new simulator and run without a step limit, leaves at its end after two
steps and four more for each word. Then `bx` stands behind the last word, which may be the address 0
again, `cx` and the registers that are not used are zero, and of the flags the zero flag is set. The
words from the base on are the numbers from the count down to one; every other byte, those of the
program included, is as it was loaded. -/
theorem run_counts_down {count base : UInt16} (hcount : count ≠ 0)
    (hbase : ∀ i < 2 * count.toNat, 16 ≤ (base + UInt16.ofNat i).toNat) :
    ∃ t : Simulator, Simulator.load {} (program count base) 0 = .ok t ∧
      let run := t.trace {}
      let final : Cpu := { bx := base + 2 * count, cx := 0, ip := 16, flags := { zero := true } }
      run.outcome = .ok ⟨final, 2 + 4 * count.toNat, none⟩ ∧ run.ending = .leftProgram ∧
        run.simulator.cpu = final ∧
        (∀ i < count.toNat, run.simulator.memory.readWord (base + UInt16.ofNat (2 * i)) =
          count - UInt16.ofNat i) ∧
        ∀ a : UInt16, (∀ i < 2 * count.toNat, a ≠ base + UInt16.ofNat i) →
          run.simulator.memory.read a = t.memory.read a := by
  have hpositive := toNat_eq_sub_one_add_one hcount
  obtain ⟨hbehind, htop⟩ := bounds_of_behind (by omega) hbase
  obtain ⟨t, hload⟩ : ∃ t, Simulator.load {} (program count base) 0 = .ok t :=
    ⟨_, (Simulator.load_eq_ok_iff ..).2 ⟨show 0 + 16 ≤ addressSpace by decide, rfl⟩⟩
  have hplace : InPlace count base t.memory := Simulator.readBytes_of_load hload
  have ht : t = state t.memory 0 0 0 {} := by
    obtain ⟨-, rfl⟩ := (Simulator.load_eq_ok_iff ..).1 hload
    rfl
  have hestimate : ({} : RunConfig).estimateClocks = false := rfl
  have hsetup : (state t.memory 0 0 0 {}).Takes {} 2 (state t.memory base count 6 {}) :=
    takes_setup {} hestimate hplace
  rw [← ht] at hsetup
  obtain ⟨m', hrounds, hcounts⟩ := takes_rounds hestimate {} hplace hcount hbehind htop
  obtain ⟨steps, hlength, hpath⟩ := hsetup.trans hrounds
  have hbudget : steps.length ≤ RunConfig.budget {} := by
    have hcounter : 2 + 4 * 65536 ≤ counterRange := by decide
    have hrange := count.toNat_lt
    exact RunConfig.le_budget nofun (by omega)
  have hout : (state m' (base + 2 * count) 0 16 { zero := true }).inProgram = false := rfl
  have hrun := Simulator.trace_eq_of_path hpath hbudget (.left hout)
  rw [hlength] at hrun
  refine ⟨t, hload, ?_⟩
  rw [hrun]
  exact ⟨rfl, rfl, rfl, hcounts.word, hcounts.other⟩

/-- Five words that end at the top of memory, so that `bx` ends at zero. -/
theorem run_counts_down_top :
    (5 : UInt16) ≠ 0 ∧ (∀ i < 2 * UInt16.toNat 5, 16 ≤ (0xFFF6 + UInt16.ofNat i).toNat) ∧
      ∃ t : Simulator, Simulator.load {} [0xB9, 0x05, 0x00, 0xBB, 0xF6, 0xFF, 0x89, 0x0F, 0x83,
          0xC3, 0x02, 0x83, 0xE9, 0x01, 0x75, 0xF6] 0 = .ok t ∧
        (t.trace {}).outcome = .ok ⟨{ ip := 16, flags := { zero := true } }, 22, none⟩ ∧
        (t.trace {}).simulator.memory.readWord 0xFFF6 = 5 ∧
        (t.trace {}).simulator.memory.readWord 0xFFFE = 1 ∧
        (t.trace {}).simulator.memory.read 0 = 0xB9 := by
  have hcount : (5 : UInt16) ≠ 0 := by decide
  have hbase : ∀ i < 2 * UInt16.toNat 5, 16 ≤ (0xFFF6 + UInt16.ofNat i).toNat := by decide
  obtain ⟨t, hload, houtcome, -, -, hwords, hother⟩ := run_counts_down hcount hbase
  refine ⟨hcount, hbase, t, hload, houtcome, hwords 0 (by decide), hwords 4 (by decide), ?_⟩
  have hfirst := Simulator.getElem?_of_load_at (i := 0) hload (by decide)
  exact (hother 0 (by decide)).trans (Option.some.inj hfirst).symm

end StoreLoop

end Machine8086
