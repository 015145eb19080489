import Machine8086.Proofs.RegisterWrites

/-!
# Changes of a step

The changes between two processors are the word registers that differ, then the instruction pointer
and the flags if they do (`Cpu.changes_eq`). So they are named in the order in which they are shown
and none twice, and each comes with two different values. Setting the registers to the new values
leads from the first processor to the second, and since the list the other way round has old and
new exchanged (`Cpu.map_swap_changes`), setting them to the old values leads back. What a step
changes is limited by its effect: it writes one register at most (`Effect.exists_written`), and it
sets the flags only for arithmetic. `changes_are_minimal_difference` says both.
-/

namespace Machine8086

/-! ## Changes applied to a processor -/

/-- Sets the word of a name. -/
def Cpu.setNamed (c : Cpu) (value : UInt16) : String → Cpu
  | "ax" => { c with ax := value }
  | "bx" => { c with bx := value }
  | "cx" => { c with cx := value }
  | "dx" => { c with dx := value }
  | "sp" => { c with sp := value }
  | "bp" => { c with bp := value }
  | "si" => { c with si := value }
  | "di" => { c with di := value }
  | "ip" => { c with ip := value }
  | _ => c

namespace RegisterChange

/-- The name under which a change is shown. -/
def name : RegisterChange → String
  | word name _ _ => name
  | flags _ _ => "flags"

/-- The old value is another than the new one. -/
def Differs : RegisterChange → Prop
  | word _ old new => old ≠ new
  | flags old new => old ≠ new

/-- Sets what has changed to the new value. -/
def apply (c : Cpu) : RegisterChange → Cpu
  | word name _ new => c.setNamed new name
  | flags _ new => { c with flags := new }

/-- Sets what has changed to the old value. -/
def undo (c : Cpu) : RegisterChange → Cpu
  | word name old _ => c.setNamed old name
  | flags old _ => { c with flags := old }

/-- The change the other way round. -/
def swap : RegisterChange → RegisterChange
  | word name old new => word name new old
  | flags old new => flags new old

theorem apply_swap (c : Cpu) (change : RegisterChange) : apply c change.swap = undo c change := by
  cases change <;> rfl

end RegisterChange

/-! ## The list of changes -/

/-- The word registers in the order in which they are shown. -/
def Register.shown : List Register := [.ax, .bx, .cx, .dx, .sp, .bp, .si, .di]

theorem Register.whole_eq_of_mem_shown {q : Register} (h : q ∈ shown) : q.whole = q := by
  revert q
  decide

namespace Cpu

variable (before after : Cpu)

/-- The word registers that differ. -/
def changedWords : List Register :=
  Register.shown.filter fun q => before.read q ≠ after.read q

theorem mem_changedWords_iff (q : Register) :
    q ∈ before.changedWords after ↔ q ∈ Register.shown ∧ before.read q ≠ after.read q := by
  rw [changedWords, List.mem_filter, decide_eq_true_eq]

theorem changedWords_comm : after.changedWords before = before.changedWords after := by
  simp only [changedWords, ne_comm]

/-- The changes of the instruction pointer and of the flags. -/
def otherChanges : List RegisterChange :=
  (if before.ip = after.ip then [] else [.word "ip" before.ip after.ip]) ++
    if before.flags = after.flags then [] else [.flags before.flags after.flags]

/-- The changes are those of the word registers that differ, then of the instruction pointer and of
the flags. -/
theorem changes_eq :
    before.changes after =
      (before.changedWords after).map (fun q => .word q.name (before.read q) (after.read q)) ++
        before.otherChanges after := by
  have hwords : ∀ c : Cpu,
      c.words = Register.shown.map (fun q => (q.name, c.read q)) ++ [("ip", c.ip)] := fun c => rfl
  rw [changes, hwords, hwords, List.zip_append (by simp), List.zip_map', List.filterMap_append,
    List.filterMap_map, List.append_assoc, changedWords, ← List.filterMap_eq_map,
    List.filterMap_filter]
  congr 1
  · refine List.filterMap_congr fun q _ => ?_
    simp
  · by_cases h : before.ip = after.ip <;> simp [otherChanges, h]

theorem mem_otherChanges_iff (change : RegisterChange) :
    change ∈ before.otherChanges after ↔
      before.ip ≠ after.ip ∧ change = .word "ip" before.ip after.ip ∨
        before.flags ≠ after.flags ∧ change = .flags before.flags after.flags := by
  rw [otherChanges, List.mem_append, List.mem_ite_nil_left, List.mem_ite_nil_left,
    List.mem_singleton, List.mem_singleton]

theorem changes_differ : ∀ change ∈ before.changes after, change.Differs := by
  intro change hchange
  rw [changes_eq, List.mem_append, mem_otherChanges_iff] at hchange
  rcases hchange with hword | ⟨hip, rfl⟩ | ⟨hflags, rfl⟩
  · obtain ⟨q, hq, rfl⟩ := List.mem_map.1 hword
    exact ((mem_changedWords_iff ..).1 hq).2
  · exact hip
  · exact hflags

theorem flags_ne_of_mem_changes {old new : Flags}
    (h : RegisterChange.flags old new ∈ before.changes after) : before.flags ≠ after.flags := by
  rw [changes_eq, List.mem_append, mem_otherChanges_iff] at h
  rcases h with hword | ⟨-, hip⟩ | ⟨hflags, -⟩
  · obtain ⟨q, -, hq⟩ := List.mem_map.1 hword
    cases hq
  · cases hip
  · exact hflags

/-! ## Names of changes -/

theorem names_otherChanges_sublist :
    ((before.otherChanges after).map RegisterChange.name).Sublist ["ip", "flags"] := by
  rw [otherChanges, List.map_append, show ["ip", "flags"] = ["ip"] ++ ["flags"] from rfl]
  refine .append ?_ ?_
  · split
    case isTrue => exact List.nil_sublist _
    case isFalse => exact .refl _
  · split
    case isTrue => exact List.nil_sublist _
    case isFalse => exact .refl _

/-- The names of the changes are some of those shown, in their order. -/
theorem names_changes_sublist :
    ((before.changes after).map RegisterChange.name).Sublist
      ["ax", "bx", "cx", "dx", "sp", "bp", "si", "di", "ip", "flags"] := by
  have hwords : (before.changedWords after).Sublist Register.shown := List.filter_sublist
  rw [changes_eq, List.map_append, List.map_map]
  exact (hwords.map Register.name).append (before.names_otherChanges_sublist after)

/-- No more changes have names other than those of the instruction pointer and the flags than there
are words that differ. -/
theorem countP_changes_le {p : String → Bool} (hip : p "ip" = false) (hflags : p "flags" = false) :
    ((before.changes after).map RegisterChange.name).countP p ≤
      (before.changedWords after).length := by
  have hother : ((before.otherChanges after).map RegisterChange.name).countP p ≤ 0 := by
    refine (before.names_otherChanges_sublist after).countP_le.trans ?_
    simp [hip, hflags]
  have hwords : ((before.changedWords after).map Register.name).countP p ≤
      (before.changedWords after).length := by
    refine List.countP_le_length.trans ?_
    rw [List.length_map]
  rw [changes_eq, List.map_append, List.map_map, List.countP_append]
  exact Nat.add_le_add hwords hother

/-- The changes the other way round are the same with old and new exchanged. -/
theorem map_swap_changes :
    (before.changes after).map RegisterChange.swap = after.changes before := by
  rw [changes_eq, changes_eq, changedWords_comm, List.map_append, List.map_map, otherChanges,
    otherChanges, List.map_append]
  congr 2
  · by_cases h : before.ip = after.ip
    · rw [if_pos h, if_pos h.symm]
      rfl
    · rw [if_neg h, if_neg (Ne.symm h)]
      rfl
  · by_cases h : before.flags = after.flags
    · rw [if_pos h, if_pos h.symm]
      rfl
    · rw [if_neg h, if_neg (Ne.symm h)]
      rfl

/-! ## From one processor to the other -/

theorem setNamed_name (c : Cpu) {q : Register} (hq : q ∈ Register.shown) (value : UInt16) :
    c.setNamed value q.name = c.write q value := by
  cases q <;> first | rfl | exact absurd hq (by decide)

/-- Processors with the same word registers, instruction pointer and flags are equal. -/
theorem ext_shown {c c' : Cpu} (hwords : ∀ q ∈ Register.shown, c.read q = c'.read q)
    (hip : c.ip = c'.ip) (hflags : c.flags = c'.flags) : c = c' := by
  refine ext_read_whole (fun q => hwords q.whole ?_) hip hflags
  cases q <;> decide

theorem read_write_shown (c : Cpu) {q r : Register} (hq : q ∈ Register.shown)
    (hr : r ∈ Register.shown) (value : UInt16) :
    (c.write r value).read q = if q = r then value else c.read q := by
  have hword := c.read_whole_write r q value
  rw [Register.whole_eq_of_mem_shown hq, Register.whole_eq_of_mem_shown hr] at hword
  have hpart : r.part = .whole := by
    rw [← Register.whole_eq_of_mem_shown hr, r.part_whole]
  rw [hword, hpart, Part.put]

/-- Writing the values of another processor to some word registers makes them as they are there,
and leaves the others. -/
theorem read_writeAll_of_shown (c target : Cpu) {registers : List Register} {q : Register}
    (hregisters : ∀ r ∈ registers, r ∈ Register.shown) (hq : q ∈ Register.shown) :
    (c.writeAll (registers.map fun r => (r, target.read r))).read q =
      if q ∈ registers then target.read q else c.read q := by
  induction registers generalizing c with
  | nil => rfl
  | cons r registers ih =>
    have hcons : c.writeAll ((r :: registers).map fun r => (r, target.read r)) =
      (c.write r (target.read r)).writeAll (registers.map fun r => (r, target.read r)) := rfl
    rw [List.forall_mem_cons] at hregisters
    rw [hcons, ih _ hregisters.2, read_write_shown c hq hregisters.1]
    by_cases hmem : q ∈ registers
    · rw [if_pos hmem, if_pos (List.mem_cons_of_mem r hmem)]
    · by_cases heq : q = r
      · rw [if_neg hmem, if_pos heq, if_pos (List.mem_cons.2 (.inl heq)), heq]
      · rw [if_neg hmem, if_neg heq, if_neg fun h => (List.mem_cons.1 h).elim heq hmem]

/-- The changes of the word registers make them all as they are afterwards. -/
theorem foldl_apply_changedWords :
    ((before.changedWords after).map fun q =>
        RegisterChange.word q.name (before.read q) (after.read q)).foldl
      RegisterChange.apply before = { after with ip := before.ip, flags := before.flags } := by
  have hshown : ∀ q ∈ before.changedWords after, q ∈ Register.shown := fun q hq =>
    ((mem_changedWords_iff ..).1 hq).1
  have hwrites : ((before.changedWords after).map fun q =>
        RegisterChange.word q.name (before.read q) (after.read q)).foldl
      RegisterChange.apply before =
        before.writeAll ((before.changedWords after).map fun q => (q, after.read q)) := by
    rw [writeAll, List.foldl_map, List.foldl_map]
    exact List.foldl_ext _ _ _ fun c q hq => c.setNamed_name (hshown q hq) _
  rw [hwrites]
  refine ext_shown (fun q hq => ?_) (before.ip_writeAll _) (before.flags_writeAll _)
  have hread : ({ after with ip := before.ip, flags := before.flags } : Cpu).read q =
      after.read q := by
    cases q <;> rfl
  rw [read_writeAll_of_shown before after hshown hq, hread, ite_eq_left_iff, mem_changedWords_iff]
  -- a word register that is not written did not differ
  intro hsame
  by_contra hne
  exact hsame ⟨hq, hne⟩

/-- Setting what has changed to the new values leads to the second processor. -/
theorem foldl_apply_changes :
    (before.changes after).foldl RegisterChange.apply before = after := by
  rw [changes_eq, List.foldl_append, foldl_apply_changedWords, otherChanges, List.foldl_append]
  have hip : (if before.ip = after.ip then [] else
        [RegisterChange.word "ip" before.ip after.ip]).foldl RegisterChange.apply
      { after with ip := before.ip, flags := before.flags } =
        { after with flags := before.flags } := by
    split
    case isTrue h =>
      rw [h]
      rfl
    case isFalse h => rfl
  rw [hip]
  split
  case isTrue h =>
    rw [h]
    rfl
  case isFalse h => rfl

/-- Setting what has changed to the old values leads back to the first processor. -/
theorem foldl_undo_changes :
    (before.changes after).foldl RegisterChange.undo after = before := by
  calc
    (before.changes after).foldl RegisterChange.undo after
      = ((before.changes after).map RegisterChange.swap).foldl RegisterChange.apply after := by
        simp only [List.foldl_map, RegisterChange.apply_swap]
    _ = before := by rw [map_swap_changes, foldl_apply_changes]

theorem changes_eq_nil_iff : before.changes after = [] ↔ before = after := by
  constructor
  · intro h
    have happly := before.foldl_apply_changes after
    rwa [h] at happly
  · rintro rfl
    simp [changes_eq, changedWords, otherChanges]

end Cpu

/-! ## Changes of a step -/

/-- An effect leaves all words but one. -/
theorem Effect.exists_written (e : Effect) :
    ∃ r : Register, ∀ (c : Cpu) (q : Register), q.whole ≠ r.whole →
      (e.onCpu c).valueOf q = c.valueOf q := by
  cases hstore : e.store with
  | none =>
    refine ⟨.ax, fun c q _ => ?_⟩
    rw [e.valueOf_onCpu, hstore]
  | some store =>
    cases store with
    | memory address w value =>
      refine ⟨.ax, fun c q _ => ?_⟩
      rw [e.valueOf_onCpu, hstore]
    | register r value =>
      refine ⟨r, fun c q hq => ?_⟩
      rw [e.valueOf_onCpu, hstore]
      exact c.valueOf_write_of_not_overlaps (fun hover => hq hover.1) value

namespace Simulator.IsStep

variable {s : Simulator} {stop : Nat} {step : Step}

/-- A step changes one word register at most. -/
theorem length_changedWords_le (h : s.IsStep stop step) :
    (step.before.changedWords step.after).length ≤ 1 := by
  obtain ⟨r, hkept⟩ := step.effect.exists_written
  have hwritten : ∀ q ∈ step.before.changedWords step.after, q ∈ [r.whole] := by
    intro q hq
    obtain ⟨hshown, hne⟩ := (Cpu.mem_changedWords_iff ..).1 hq
    rw [List.mem_singleton, ← Register.whole_eq_of_mem_shown hshown]
    by_contra hwhole
    refine hne (UInt16.toNat_inj.1 ?_)
    rw [Cpu.toNat_read, Cpu.toNat_read, h.before, h.after, hkept _ q hwhole]
    exact (s.cpu.valueOf_set_ip step.next q).symm
  have hnodup : (step.before.changedWords step.after).Nodup :=
    List.Nodup.filter _ (show Register.shown.Nodup by decide)
  exact (hnodup.subperm hwritten).length_le

/-- A step changes the flags only if it adds, subtracts or compares. -/
theorem operation_mem_of_flags_ne (h : s.IsStep stop step)
    (hflags : step.before.flags ≠ step.after.flags) :
    step.instruction.operation ∈ [Operation.add, .sub, .cmp] := by
  rw [h.before, h.after, Effect.flags_onCpu] at hflags
  have heffect := h.hasEffect
  generalize step.instruction = i, step.effect = e at heffect hflags
  cases heffect with
  | add hw | sub hw | cmp hw => simp [Instruction.pair]
  | mov hw => exact absurd rfl hflags
  | jneTaken offset hzero => exact absurd rfl hflags
  | jneNotTaken offset hzero => exact absurd rfl hflags

end Simulator.IsStep

/-! ## The conclusion -/

/-- The changes between any two processors have the names of words and flags in the order in which
they are shown, none twice and none with old equal to new. Applying the new values leads from the
first processor to the second, applying the old values leads back, and the list is empty exactly if
the processors are equal. The changes of a step that succeeds are those between the processors
around it; among them is one general register at most, and the flags only if the step adds,
subtracts or compares. -/
theorem changes_are_minimal_difference :
    (∀ before after : Cpu,
      let changes := before.changes after
      (changes.map RegisterChange.name).Sublist
          ["ax", "bx", "cx", "dx", "sp", "bp", "si", "di", "ip", "flags"] ∧
        (changes.map RegisterChange.name).Nodup ∧ (∀ change ∈ changes, change.Differs) ∧
        changes.foldl RegisterChange.apply before = after ∧
        changes.foldl RegisterChange.undo after = before ∧
        (changes = [] ↔ before = after)) ∧
    ∀ (s next : Simulator) (step : Step), s.step = .ok (step, next) →
      step.changes = s.cpu.changes next.cpu ∧
        (step.changes.map RegisterChange.name).countP
          (· ∈ ["ax", "bx", "cx", "dx", "sp", "bp", "si", "di"]) ≤ 1 ∧
        ∀ old new, RegisterChange.flags old new ∈ step.changes →
          step.instruction.operation ∈ [Operation.add, .sub, .cmp] := by
  constructor
  · intro before after changes
    have hsublist := before.names_changes_sublist after
    exact ⟨hsublist, hsublist.nodup (by decide), before.changes_differ after,
      before.foldl_apply_changes after, before.foldl_undo_changes after,
      before.changes_eq_nil_iff after⟩
  · intro s next step hstep
    obtain ⟨hpreview, rfl⟩ := (Simulator.step_eq_ok_iff ..).1 hstep
    have h := (Simulator.preview_eq_ok_iff ..).1 hpreview
    refine ⟨?_, ?_, ?_⟩
    · rw [Step.changes, h.before]
      rfl
    · exact (Cpu.countP_changes_le _ _ (by decide) (by decide)).trans h.length_changedWords_le
    · intro old new hflags
      exact h.operation_mem_of_flags_ne (Cpu.flags_ne_of_mem_changes _ _ hflags)

/-- Adding 128 to `ah` changes the word `ax`, the instruction pointer and the flags. -/
theorem changes_are_minimal_difference_add_ah :
    let s : Simulator := { memory := Memory.zero.writeBytes 0 [0x80, 0xC4, 0x80] }
    ∃ step next, s.step = .ok (step, next) ∧
      step.changes = [.word "ax" 0 0x8000, .word "ip" 0 3, .flags {} { sign := true }] ∧
      step.changes.foldl RegisterChange.apply s.cpu = next.cpu ∧
      step.changes.foldl RegisterChange.undo next.cpu = s.cpu ∧
      (step.changes.map RegisterChange.name).countP
        (· ∈ ["ax", "bx", "cx", "dx", "sp", "bp", "si", "di"]) ≤ 1 ∧
      step.instruction.operation ∈ [Operation.add, .sub, .cmp] := by
  intro s
  let d : Decoded := ⟨0, 3, .pair .add (.register .ah) (.immediate (.ofByte 0x80))⟩
  have hdecode : decode s.memory s.cpu.ip addressSpace = .ok d := by decide
  let e : Effect := { flags := some { sign := true }, store := some (.register .ah 0x80) }
  have heffect : effect s.memory { ip := 3 } d.instruction = .ok e := by decide
  have hexecute : execute s.memory { ip := 3 } d.instruction =
      .ok (s.memory, { ax := 0x8000, ip := 3, flags := { sign := true } }) := by
    have hcpu : e.onCpu { ip := 3 } = { ax := 0x8000, ip := 3, flags := { sign := true } } := by
      decide
    rw [execute, heffect, ← hcpu]
    rfl
  obtain ⟨step, hstep, -⟩ := Simulator.step_of_execute hdecode hexecute
  obtain ⟨hpair, hsteps⟩ := changes_are_minimal_difference
  obtain ⟨hchanges, hone, hflags⟩ := hsteps s _ step hstep
  have hlist : step.changes =
      [.word "ax" 0 0x8000, .word "ip" 0 3, .flags {} { sign := true }] :=
    hchanges.trans (by decide)
  obtain ⟨-, -, -, happly, hundo, -⟩ := hpair s.cpu
    { ax := 0x8000, ip := 3, flags := { sign := true } }
  rw [← hchanges] at happly hundo
  exact ⟨step, _, hstep, hlist, happly, hundo, hone, hflags {} { sign := true } (by simp [hlist])⟩

end Machine8086
