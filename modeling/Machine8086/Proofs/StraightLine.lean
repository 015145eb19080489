import Machine8086.Proofs.Listing
import Machine8086.Proofs.Run
import Machine8086.Session

/-!
# Straight-line programs

Moves, additions and subtractions into registers and comparisons store nothing to memory and do not
jump (`Instruction.StraightLine`). A run of such instructions keeps step with the listing of the
program: it stands at each position of the listing in turn (`Simulator.StandsAt`), so it reports the
listed instructions one after the other and stops at the end of the program
(`run_follows_listing`).
-/

namespace Machine8086

/-- A move, an addition or a subtraction into a register, or any comparison. -/
def Instruction.StraightLine (i : Instruction) : Prop :=
  i.operation = .cmp ∨
    i.operation ∈ [Operation.mov, .add, .sub] ∧ ∃ r, i.destination? = some (.register r)

namespace Instruction.StraightLine

variable {i : Instruction}

theorem mem_executable (h : i.StraightLine) : i.operation ∈ executable := by
  rcases h with h | ⟨h, -⟩
  · rw [h]
    decide
  · simp only [List.mem_cons, List.not_mem_nil, or_false] at h
    rcases h with h | h | h <;> rw [h] <;> decide

theorem ne_jne (h : i.StraightLine) : i.operation ≠ .jne := by
  rcases h with h | ⟨h, -⟩
  · rw [h]
    decide
  · intro hjne
    rw [hjne] at h
    exact absurd h (by decide)

/-- Neither a register destination nor a comparison reaches memory. -/
theorem onMemory_eq (h : i.StraightLine) {m : Memory} {c : Cpu} {e : Effect}
    (he : HasEffect m c i e) (n : Memory) : e.onMemory n = n := by
  refine he.onMemory_eq (fun hcmp o ho => ?_) n
  obtain ⟨-, r, hr⟩ := h.resolve_left hcmp
  cases hr.symm.trans ho

end Instruction.StraightLine

namespace Simulator

/-- A decoded straight-line instruction is executed; memory stays as it is and the instruction
pointer goes to the end of the instruction. -/
theorem exists_straightLine_step {s : Simulator} {stop : Nat} {d : Decoded}
    (hdecode : decode s.memory s.cpu.ip stop = .ok d) (hd : d.instruction.StraightLine) :
    ∃ step, s.IsStep stop step ∧ step.toDecoded = d ∧ (s.commit step).memory = s.memory ∧
      (s.commit step).cpu.ip = UInt16.ofNat (d.address.toNat + d.size) := by
  have hdecodable : d.instruction.Decodable := ⟨s.memory, _, stop, d, hdecode, rfl⟩
  have hwell := (Instruction.decodable_iff_wellFormed _).1 hdecodable
  obtain ⟨e, heffect⟩ :=
    exists_effect s.memory { s.cpu with ip := d.next } hwell hd.mem_executable
  obtain ⟨step, hstep, rfl, rfl⟩ := exists_isStep hdecode heffect
  refine ⟨step, hstep, rfl, hd.onMemory_eq hstep.hasEffect s.memory, ?_⟩
  exact hstep.ip_after fun hjump => hd.ne_jne hjump.1

/-! ## A run beside a listing -/

/-- The simulator stands at a position in the listing of a memory up to the end of its program. -/
structure StandsAt (s : Simulator) (m : Memory) (stop position : Nat) : Prop where
  memory : s.memory = m
  programEnd : s.programEnd = stop
  start_le : s.programStart.toNat ≤ position
  le_stop : position ≤ stop
  ip : s.cpu.ip = UInt16.ofNat position

variable {config : RunConfig} {m : Memory} {stop position : Nat}

/-- The next turn executes the listed instruction and goes on to the next position. -/
theorem StandsAt.turn {s : Simulator} (h : s.StandsAt m stop position)
    (hspace : stop ≤ addressSpace) (hestimate : config.estimateClocks = false)
    (hposition : position < stop) {d : Decoded}
    (hdecode : decode m (UInt16.ofNat position) stop = .ok d) (hd : d.instruction.StraightLine) :
    ∃ step, s.Turn config step ∧ step.toDecoded = d ∧
      (s.commit step).StandsAt m stop (position + d.size) := by
  have hend := decode_end_le hdecode
  have haddress := (decode_eq_ok hdecode).1
  have htoNat : (UInt16.ofNat position).toNat = position :=
    UInt16.toNat_ofNat_of_lt' (Nat.lt_of_lt_of_le hposition hspace)
  obtain ⟨rfl, rfl, hstart, hle, hip⟩ := h
  rw [← hip] at hdecode
  obtain ⟨step, hstep, rfl, hmemory, hnext⟩ := exists_straightLine_step hdecode hd
  rw [htoNat] at hend
  rw [haddress, htoNat] at hnext
  have hin : s.inProgram = true := by
    rw [inProgram_iff, hip, htoNat]
    exact ⟨hstart, hposition⟩
  have turn : s.Turn config step := .of_isStep hestimate hin hstep
  exact ⟨step, turn, rfl, hmemory, rfl, by rw [commit_programStart]; omega, by omega, hnext⟩

/-- From a position of a listing that succeeds there is a path through its instructions to the
end. -/
theorem StandsAt.exists_path (hspace : stop ≤ addressSpace)
    (hestimate : config.estimateClocks = false) (index : Nat) :
    (m.listing stop position index).failure = none →
      (∀ d ∈ (m.listing stop position index).instructions, d.instruction.StraightLine) →
        ∀ s : Simulator, s.StandsAt m stop position →
          ∃ steps final, s.Path config steps final ∧
            steps.map Step.toDecoded = (m.listing stop position index).instructions ∧
            final.StandsAt m stop stop := by
  refine m.listing_induction (motive := fun position _ l => l.failure = none →
    (∀ d ∈ l.instructions, d.instruction.StraightLine) →
      ∀ s : Simulator, s.StandsAt m stop position →
        ∃ steps final, s.Path config steps final ∧ steps.map Step.toDecoded = l.instructions ∧
          final.StandsAt m stop stop) index ?_ ?_ ?_
  · intro position index hposition hfailure hline s h
    obtain rfl : position = stop := Nat.le_antisymm h.le_stop hposition
    exact ⟨[], s, .nil s, rfl, h⟩
  · intro position index e hposition hdecode hfailure
    cases hfailure
  · intro position index d rest hposition hdecode ih hfailure hline s h
    obtain ⟨step, turn, rfl, hnext⟩ :=
      h.turn hspace hestimate hposition hdecode (hline d List.mem_cons_self)
    obtain ⟨steps, final, hpath, hsteps, hfinal⟩ :=
      ih hfailure (fun d' hd' => hline d' (List.mem_cons_of_mem _ hd')) _ hnext
    exact ⟨step :: steps, final, .cons turn hpath, by rw [List.map_cons, hsteps], hfinal⟩

end Simulator

/-! ## Runs of listed programs -/

/-- No listing has more instructions than there are bytes to list. -/
theorem Memory.length_listing_le (m : Memory) (stop position index : Nat) :
    (m.listing stop position index).instructions.length ≤ stop - position := by
  refine m.listing_induction
    (motive := fun position _ l => l.instructions.length ≤ stop - position) index ?_ ?_ ?_
  · intro position index hposition
    exact Nat.zero_le _
  · intro position index e hposition hdecode
    exact Nat.zero_le _
  · intro position index d rest hposition hdecode ih
    have hsize := (decode_eq_ok hdecode).2
    rw [List.length_cons]
    omega

/-- The same program at the same place is listed alike, whatever else is in memory. -/
theorem Simulator.listing_eq_of_load {s s' t t' : Simulator} {program : List UInt8}
    {start : UInt16} (h : s.load program start = .ok t) (h' : s'.load program start = .ok t') :
    t.listing = t'.listing := by
  have hread : ∀ address : UInt16, start.toNat ≤ address.toNat →
      address.toNat < start.toNat + program.length →
        t.memory.read address = t'.memory.read address :=
    fun _ => Simulator.read_eq_of_load h h'
  obtain ⟨hspace, rfl⟩ := (Simulator.load_eq_ok_iff ..).1 h
  obtain ⟨-, rfl⟩ := (Simulator.load_eq_ok_iff ..).1 h'
  exact Memory.listing_congr _ 0 hspace hread

/-- From the start of its program, a run of straight-line instructions executes what is listed and
leaves the program at its end. -/
theorem Simulator.trace_of_listing {t : Simulator} {config : RunConfig}
    (hspace : t.programEnd ≤ addressSpace) (hstart : t.programStart.toNat ≤ t.programEnd)
    (hfills : ¬ t.FillsMemory) (hip : t.cpu.ip = t.programStart)
    (hfailure : t.listing.failure = none)
    (hline : ∀ d ∈ t.listing.instructions, d.instruction.StraightLine)
    (hestimate : config.estimateClocks = false)
    (hbudget : t.listing.instructions.length ≤ config.budget) :
    ∃ steps final, t.trace config = ⟨⟨final, steps, steps.length, none⟩, .leftProgram⟩ ∧
      steps.map Step.toDecoded = t.listing.instructions ∧ final.memory = t.memory ∧
      final.cpu.ip = UInt16.ofNat t.programEnd := by
  have hat : t.StandsAt t.memory t.programEnd t.programStart.toNat :=
    ⟨rfl, rfl, Nat.le_refl _, hstart, by rw [hip, UInt16.ofNat_toNat]⟩
  obtain ⟨steps, final, hpath, hsteps, hfinal⟩ :=
    StandsAt.exists_path hspace hestimate 0 hfailure hline t hat
  have hout : final.inProgram = false := by
    apply inProgram_eq_false_of_ip
    · rw [hpath.programEnd_eq]
      exact hspace
    · rwa [FillsMemory, hpath.programStart_eq, hpath.programEnd_eq]
    · rw [hpath.programEnd_eq]
      exact hfinal.ip
  have hlength : steps.length ≤ config.budget := by
    rw [← List.length_map, hsteps]
    exact hbudget
  refine ⟨steps, final, ?_, hsteps, hfinal.memory, hfinal.ip⟩
  rw [trace_eq_of_path hpath hlength (.left hout), RunConfig.clockTotal, hestimate]
  rfl

theorem Listing.count_eq_ok_iff (listing : Listing) (n : Nat) :
    listing.count = .ok n ↔ listing.failure = none ∧ listing.instructions.length = n := by
  rw [count]
  cases listing.failure with
  | none => simp
  | some e => simp

/-- A program of straight-line instructions that leaves room in memory is run as it is listed. From
the load on, with any registers, flags and other memory and a step limit that is not too low, the
run succeeds after as many steps as there are lines; the text of each step is the line of the
listing, its address is the start of the program plus the sizes of the steps before it; the
instruction pointer ends at the end of the program, and memory is as it was. -/
theorem run_follows_listing {s s' t t' : Simulator} {program : List UInt8} {start : UInt16}
    {n : Nat} {config : RunConfig} (hload : s.load program start = .ok t)
    (hload' : s'.load program start = .ok t')
    (hroom : 0 < start.toNat ∨ start.toNat + program.length < addressSpace)
    (hcount : t.listing.count = .ok n)
    (hline : ∀ d ∈ t.listing.instructions, d.instruction.StraightLine)
    (hestimate : config.estimateClocks = false)
    (hlimit : ∀ limit, config.stepLimit = some limit → n ≤ limit) :
    (t'.trace config).outcome = .ok ⟨(t'.trace config).simulator.cpu, n, none⟩ ∧
      (t'.trace config).report.map Step.toDecoded = t.listing.instructions ∧
      t.listing.disassembly = .ok (Listing.header ++
        String.join ((t'.trace config).report.map fun step => step.text ++ "\n")) ∧
      (∀ (k : Nat) (step : Step), (t'.trace config).report[k]? = some step →
        step.address.toNat =
          start.toNat + (((t'.trace config).report.take k).map fun step => step.size).sum) ∧
      (t'.trace config).simulator.cpu.ip = UInt16.ofNat (start.toNat + program.length) ∧
      (t'.trace config).simulator.memory = t'.memory := by
  have hlisting := Simulator.listing_eq_of_load hload hload'
  obtain ⟨hfailure, rfl⟩ := (Listing.count_eq_ok_iff ..).1 hcount
  obtain ⟨hspace, ht'⟩ := (Simulator.load_eq_ok_iff ..).1 hload'
  have hprogram : t'.programEnd = start.toNat + program.length := by rw [ht']
  have hstart : t'.programStart = start := by rw [ht']
  have hip : t'.cpu.ip = start := by rw [ht']
  have hfills : ¬ t'.FillsMemory := by
    rintro ⟨hzero, hend⟩
    rw [hstart] at hzero
    rw [hprogram, hzero, UInt16.toNat_zero] at hend
    rw [hzero, UInt16.toNat_zero] at hroom
    omega
  have hbudget : t.listing.instructions.length ≤ config.budget := by
    apply RunConfig.le_budget hlimit
    -- the counter goes further than there are addresses
    have hcounter : addressSpace < counterRange := by decide
    have hlength := Memory.length_listing_le t'.memory t'.programEnd t'.programStart.toNat 0
    rw [hlisting]
    exact Nat.lt_of_le_of_lt hlength (by omega)
  rw [hlisting] at hfailure hline hbudget ⊢
  obtain ⟨steps, final, htrace, hsteps, hmemory, hfinal⟩ :=
    Simulator.trace_of_listing (by rw [hprogram]; exact hspace)
      (by rw [hprogram, hstart]; exact Nat.le_add_right ..) hfills (by rw [hip, hstart]) hfailure
      hline hestimate hbudget
  have hcountSteps : steps.length = t'.listing.instructions.length := by
    rw [← hsteps, List.length_map]
  rw [htrace]
  refine ⟨?_, hsteps, ?_, ?_, by rw [hfinal, hprogram], hmemory⟩
  · rw [← hcountSteps]
    rfl
  · rw [Listing.disassembly_eq_ok_iff]
    refine ⟨hfailure, ?_⟩
    rw [Listing.text, ← hsteps, List.map_map]
    rfl
  · intro k step hstep
    have hdecoded : t'.listing.instructions[k]? = some step.toDecoded := by
      rw [← hsteps, List.getElem?_map]
      exact congrArg (Option.map Step.toDecoded) hstep
    have haddress : step.address.toNat =
        t'.programStart.toNat + ((t'.listing.instructions.take k).map Decoded.size).sum :=
      t'.memory.address_of_listing 0 (hprogram ▸ hspace) k step.toDecoded hdecoded
    rw [haddress, hstart, ← hsteps, ← List.map_take, List.map_map]
    rfl

/-- Loaded at 0, `mov cx, 1` and `sub cx, 1` are run as they are listed, in two steps. -/
theorem run_follows_listing_mov_sub :
    ∃ t : Simulator, Simulator.load {} [0xB9, 0x01, 0x00, 0x83, 0xE9, 0x01] 0 = .ok t ∧
      t.listing.count = .ok 2 ∧
      (∀ d ∈ t.listing.instructions, d.instruction.StraightLine) ∧
      (t.trace {}).outcome = .ok ⟨(t.trace {}).simulator.cpu, 2, none⟩ ∧
      (t.trace {}).report.map Step.toDecoded = t.listing.instructions ∧
      (t.trace {}).simulator.cpu.ip = 6 := by
  obtain ⟨t, hload⟩ :
      ∃ t, Simulator.load {} [0xB9, 0x01, 0x00, 0x83, 0xE9, 0x01] 0 = .ok t := ⟨_, rfl⟩
  obtain ⟨-, ht⟩ := (Simulator.load_eq_ok_iff ..).1 hload
  refine ⟨t, hload, ?_⟩
  let mov : Decoded := ⟨0, 3, .pair .mov (.register .cx) (.immediate (.ofWord 1))⟩
  let sub : Decoded := ⟨3, 3, .pair .sub (.register .cx) (.immediate (.ofWord 1))⟩
  have hmov : decode t.memory (UInt16.ofNat 0) 6 = .ok mov := by
    rw [ht]
    rfl
  have hsub : decode t.memory (UInt16.ofNat 3) 6 = .ok sub := by
    rw [ht]
    rfl
  have hlisting : t.listing = ⟨[mov, sub], none⟩ := by
    have hextent : t.listing = t.memory.listing 6 0 0 := by
      rw [ht]
      rfl
    have hend : t.memory.listing 6 (3 + sub.size) 2 = ⟨[], none⟩ :=
      Memory.listing_of_le _ _ (Nat.le_refl 6)
    have hrest : t.memory.listing 6 (0 + mov.size) 1 = ⟨[sub], none⟩ :=
      (Memory.listing_of_ok _ _ (by decide) hsub).trans (by rw [hend])
    rw [hextent, Memory.listing_of_ok _ _ (by decide) hmov, hrest]
  have hcount : t.listing.count = .ok 2 := by
    rw [hlisting]
    rfl
  have hline : ∀ d ∈ t.listing.instructions, d.instruction.StraightLine := by
    rw [hlisting]
    intro d hd
    rcases List.mem_pair.1 hd with rfl | rfl
    · exact .inr ⟨by decide, .cx, rfl⟩
    · exact .inr ⟨by decide, .cx, rfl⟩
  obtain ⟨houtcome, hreport, -, -, hip, -⟩ :=
    run_follows_listing hload hload (.inr (by decide)) hcount hline
      (show ({} : RunConfig).estimateClocks = false from rfl) nofun
  exact ⟨hcount, hline, houtcome, hreport, hip⟩

end Machine8086
