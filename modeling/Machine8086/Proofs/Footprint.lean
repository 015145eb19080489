import Machine8086.Proofs.Checked.Simulator
import Machine8086.Proofs.Truncation

/-!
# The bytes a step depends on

A step reads the bytes of its instruction and those of the memory operands that the instruction
reads (`Instruction.Reads`): a source, and the destination of an addition, a subtraction or a
comparison. Two memories that agree on these bytes give an instruction the same effect
(`effect_of_agreeAt`), so that the same step is worked out in both (`Simulator.preview_of_agree`).
What an effect does to memory is to store no more than two bytes, the second behind the first
(`Effect.exists_onMemory_eq`), and it does the same to every memory. So both steps fail alike, or
both store the same bytes at the same place and leave the rest of their memories alone
(`step_footprint`).
-/

namespace Machine8086

/-! ## Operands that are read -/

/-- The memory operands that an instruction reads. -/
inductive Instruction.Reads (i : Instruction) (o : MemoryOperand) : Prop
  | source (h : i.source? = some (.memory o))
  | destination (h : i.destination? = some (.memory o))
      (hoperation : i.operation ∈ [Operation.add, .sub, .cmp])

/-- The memories hold the same value of a width at an address. -/
def Memory.AgreeAt (m n : Memory) (w : Width) (address : UInt16) : Prop :=
  ∀ a ∈ cells w address, m.read a = n.read a

section

variable {m n : Memory} {c : Cpu} {w : Width}

theorem Memory.AgreeAt.readWide_eq {address : UInt16} (h : m.AgreeAt n w address) :
    m.readWide w address = n.readWide w address := by
  cases w with
  | byte => rw [readWide, readWide, h address (List.mem_singleton_self address)]
  | word =>
    rw [readWide, readWide, readWord, readWord, h address (mem_cells_word.2 (.inl rfl)),
      h (address + 1) (mem_cells_word.2 (.inr rfl))]

theorem sourceValue_of_agreeAt {source : Source}
    (h : ∀ o, source = .memory o → m.AgreeAt n w (c.addressOf o)) :
    sourceValue m c w source = sourceValue n c w source := by
  cases source with
  | register r => rfl
  | immediate imm => rfl
  | memory o => rw [sourceValue, sourceValue, c.effectiveAddress_eq, (h o rfl).readWide_eq]

theorem Operand.toSource_eq_memory {operand : Operand} {o : MemoryOperand}
    (h : operand.toSource = .memory o) : operand = .memory o := by
  cases operand with
  | register r => cases h
  | memory other =>
    cases h
    rfl

/-- An instruction has the same effect in memories that agree on the operands it reads. -/
theorem effect_of_agreeAt {i : Instruction}
    (h : ∀ o w, i.Reads o → i.width? = some w → m.AgreeAt n w (c.addressOf o)) :
    effect m c i = effect n c i := by
  obtain ⟨operation, operands⟩ := i
  cases operands with
  | relative offset => cases operation <;> rfl
  | pair destination source =>
    -- whether the destination is read, too, depends on the operation
    rw [Instruction.width?] at h
    simp only [effect, Operands.executedWidth]
    cases hwidth : (Operands.pair destination source).width? with
    | none => cases operation <;> rfl
    | some w =>
      have hsource : sourceValue m c w source = sourceValue n c w source :=
        sourceValue_of_agreeAt fun o ho => h o w (.source (congrArg some ho)) hwidth
      have hdestination : operation ∈ [Operation.add, .sub, .cmp] →
          sourceValue m c w destination.toSource = sourceValue n c w destination.toSource := by
        intro hoperation
        refine sourceValue_of_agreeAt fun o ho => h o w (.destination ?_ hoperation) hwidth
        exact congrArg some (Operand.toSource_eq_memory ho)
      cases operation with
      | mov => simp only [Except.map, moveEffect, hsource]
      | add => simp only [Except.map, sumOf, hsource, hdestination (by decide)]
      | sub => simp only [Except.map, differenceOf, hsource, hdestination (by decide)]
      | cmp => simp only [Except.map, differenceOf, hsource, hdestination (by decide)]
      | _ => rfl

end

theorem Cpu.addressOf_set_ip (c : Cpu) (ip : UInt16) (o : MemoryOperand) :
    ({ c with ip := ip } : Cpu).addressOf o = c.addressOf o := by
  cases o with
  | direct address => rfl
  | based base displacement => rw [addressOf, addressOf, funext (c.valueOf_set_ip ip)]

/-! ## Bytes that are stored -/

/-- The second memory is the first with the values from an address on, the top of memory going over
into its bottom, and otherwise the same. -/
structure Memory.Stores (m : Memory) (address : UInt16) (values : List UInt8) (m' : Memory) :
    Prop where
  stored : ∀ i (h : i < values.length), m'.read (address + UInt16.ofNat i) = values[i]
  kept : ∀ a, (∀ i < values.length, a ≠ address + UInt16.ofNat i) → m'.read a = m.read a

theorem Memory.stores_writeBytes (m : Memory) (address : UInt16) {values : List UInt8}
    (h : values.length ≤ addressSpace) : m.Stores address values (m.writeBytes address values) where
  stored i hi := by
    have hread := getElem?_readBytes (m.writeBytes address values) address hi
    rw [readBytes_writeBytes m address h, List.getElem?_eq_getElem hi] at hread
    exact (Option.some.inj hread).symm
  kept a ha := by
    have hfar : values.length ≤ (a - address).toNat := by
      by_contra hnear
      refine ha _ (Nat.not_le.1 hnear) ?_
      rw [UInt16.ofNat_toNat, UInt16.add_comm, UInt16.sub_add_cancel]
    rw [m.read_writeBytes address a h, List.getElem?_eq_none hfar, Option.getD_none]

/-- An effect stores the same few bytes in every memory. -/
theorem Effect.exists_onMemory_eq (e : Effect) :
    ∃ address values, values.length ≤ 2 ∧ ∀ m, e.onMemory m = m.writeBytes address values := by
  obtain ⟨flags, store, jump⟩ := e
  cases store with
  | none => exact ⟨0, [], Nat.zero_le 2, fun m => rfl⟩
  | some store =>
    cases store with
    | register r value => exact ⟨0, [], Nat.zero_le 2, fun m => rfl⟩
    | memory address w value =>
      cases w with
      | byte => exact ⟨address, [value.toUInt8], Nat.le_succ 1, fun m => rfl⟩
      | word =>
        exact ⟨address, [value.toUInt8, (value >>> 8).toUInt8], Nat.le_refl 2, fun m => rfl⟩

/-! ## Steps -/

/-- In memories that agree on the instruction and on what it reads, the same step is worked out. -/
theorem Simulator.preview_of_agree {s t : Simulator} {stop : Nat} {d : Decoded}
    (hcpu : t.cpu = s.cpu) (hdecode : decode s.memory s.cpu.ip stop = .ok d)
    (hcode : s.memory.AgreeFrom t.memory s.cpu.ip d.size)
    (hread : ∀ o w, d.instruction.Reads o → d.instruction.width? = some w →
      s.memory.AgreeAt t.memory w (s.cpu.addressOf o)) :
    t.preview stop = s.preview stop := by
  have hdecode' : decode t.memory s.cpu.ip stop = .ok d := decode_of_agreeFrom hdecode hcode
  have heffect : effect s.memory { s.cpu with ip := d.next } d.instruction =
      effect t.memory { s.cpu with ip := d.next } d.instruction := by
    refine effect_of_agreeAt fun o w hreads hwidth => ?_
    rw [Cpu.addressOf_set_ip]
    exact hread o w hreads hwidth
  rw [preview, preview, hcpu, hdecode, hdecode']
  dsimp only
  rw [heffect]

/-- A step depends on the bytes it names. Two simulators have the same processor, and an instruction
is decoded at the instruction pointer of the first; their memories agree on its bytes and, at the
width of the instruction, on the memory operands that it reads. Then a step of both fails in the
same way and changes nothing, or it is the same step in both. It stores the same values at the same
place, no more than two of them, and keeps all other bytes of each memory. -/
theorem step_footprint {s t : Simulator} {d : Decoded} (hcpu : t.cpu = s.cpu)
    (hdecode : decode s.memory s.cpu.ip addressSpace = .ok d)
    (hcode : s.memory.AgreeFrom t.memory s.cpu.ip d.size)
    (hread : ∀ o w, d.instruction.Reads o → d.instruction.width? = some w →
      s.memory.AgreeAt t.memory w (s.cpu.addressOf o)) :
    (∃ e, s.step = .error e ∧ t.step = .error e ∧
        Checked.step.exec s = .ok (.error e, s) ∧ Checked.step.exec t = .ok (.error e, t)) ∨
      ∃ step s' t' address values, s.step = .ok (step, s') ∧ t.step = .ok (step, t') ∧
        Checked.step.exec s = .ok (.ok (.ofStep step), s') ∧
        Checked.step.exec t = .ok (.ok (.ofStep step), t') ∧
        s'.cpu = step.after ∧ t'.cpu = step.after ∧ values.length ≤ 2 ∧
        s.memory.Stores address values s'.memory ∧ t.memory.Stores address values t'.memory := by
  have hpreview := Simulator.preview_of_agree hcpu hdecode hcode hread
  -- the same step is worked out in both, so that what is left is how it is committed
  have hexec := Checked.exec_stepWithin addressSpace
  rw [Simulator.step, Simulator.step, Simulator.stepWithin, Simulator.stepWithin, Checked.step,
    hexec, hexec, hpreview]
  cases s.preview addressSpace with
  | error e => exact .inl ⟨e, rfl, rfl, rfl, rfl⟩
  | ok step =>
    obtain ⟨address, values, hlength, honMemory⟩ := step.effect.exists_onMemory_eq
    have hspace : values.length ≤ addressSpace := Nat.le_trans hlength (by decide)
    have hstores : ∀ u : Simulator, u.memory.Stores address values (u.commit step).memory := by
      intro u
      rw [Simulator.commit, honMemory]
      exact u.memory.stores_writeBytes address hspace
    exact .inr ⟨step, s.commit step, t.commit step, address, values, rfl, rfl, rfl, rfl, rfl, rfl,
      hlength, hstores s, hstores t⟩

/-- An addition to the word at the top of memory, whose high byte is at the bottom. A byte that is
neither of these two nor one of the instruction makes no difference. -/
theorem step_footprint_add_top :
    let m := Memory.zero.writeBytes 0x100 [0x81, 0x06, 0xFF, 0xFF, 0x01, 0x00]
    let s : Simulator := { memory := m, cpu := { ip := 0x100 } }
    let t : Simulator := { memory := m.write 0x200 7, cpu := { ip := 0x100 } }
    ∃ step s' t' address values, s.step = .ok (step, s') ∧ t.step = .ok (step, t') ∧
      values.length ≤ 2 ∧ s.memory.Stores address values s'.memory ∧
      t.memory.Stores address values t'.memory := by
  intro m s t
  let d : Decoded := ⟨0x100, 6, .pair .add (.memory (.direct 0xFFFF)) (.immediate (.ofWord 1))⟩
  have hdecode : decode s.memory s.cpu.ip addressSpace = .ok d := by decide
  have hkept : ∀ a, a ≠ 0x200 → s.memory.read a = t.memory.read a := fun a ha =>
    (m.read_write_of_ne 7 ha).symm
  have hcode : s.memory.AgreeFrom t.memory s.cpu.ip d.size := by
    intro a _ ha
    refine hkept a fun h => ?_
    rw [h] at ha
    exact absurd ha (by decide)
  have hread : ∀ o w, d.instruction.Reads o → d.instruction.width? = some w →
      s.memory.AgreeAt t.memory w (s.cpu.addressOf o) := by
    rintro o w (hsource | ⟨hdestination, -⟩) hwidth
    · cases hsource
    · cases hdestination
      cases hwidth
      intro a ha
      refine hkept a fun h => ?_
      rw [h] at ha
      exact absurd ha (by decide)
  obtain ⟨e, herror, -⟩ | ⟨step, s', t', address, values, hs, ht, -, -, -, -, hlength, hstores⟩ :=
    step_footprint (s := s) (t := t) rfl hdecode hcode hread
  · -- an addition is executed
    have hwell : d.instruction.WellFormed :=
      (Instruction.decodable_iff_wellFormed _).1 ⟨s.memory, _, _, d, hdecode, rfl⟩
    obtain ⟨e', heffect⟩ := exists_effect s.memory { s.cpu with ip := d.next } hwell (by decide)
    obtain ⟨step, hstep, -, -⟩ := Simulator.exists_isStep hdecode heffect
    have hok := Simulator.step_eq_of_preview ((Simulator.preview_eq_ok_iff ..).2 hstep)
    cases herror.symm.trans hok
  · exact ⟨step, s', t', address, values, hs, ht, hlength, hstores⟩

end Machine8086
