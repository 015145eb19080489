import Machine8086.Proofs.Checked.Execution

/-!
# Outcomes of any instruction

The type of instructions admits more than the decoder returns, and all of it can be handed to the
executor: data operations on an offset, jumps with two operands, operands of different widths. There
are three outcomes. Two operands in memory have no width, and a data operation on them is a fault
(`Instruction.BothInMemory`). Where there is no execution model (`Instruction.Unimplemented`), the
error names the operation and nothing is changed. Everything else is executed, at the width of the
register destination, or of the source if the destination is in memory. The source is cut to that
width (`Source.cutValue`), and what is then left of memory and processor is said by `Leaves`.
`execute_outcomes` puts the three together.
-/

namespace Machine8086

/-! ## Instructions that are not executed -/

/-- A data operation between two operands in memory. -/
def Instruction.BothInMemory (i : Instruction) : Prop :=
  i.operation.isRelativeJump = false ∧ ∃ o o', i.operands = .pair (.memory o) (.memory o')

/-- Instructions without an execution model: every jump but the one on a clear zero flag, that one
on two operands, and data operations on an offset. -/
inductive Instruction.Unimplemented : Instruction → Prop
  | otherJump {operation : Operation} {operands : Operands}
      (hjump : operation.isRelativeJump = true) (hne : operation ≠ .jne) :
      Unimplemented ⟨operation, operands⟩
  | jumpOnPair (destination : Operand) (source : Source) :
      Unimplemented (.pair .jne destination source)
  | dataOnOffset {operation : Operation} (offset : Int8)
      (hdata : operation.isRelativeJump = false) : Unimplemented (.jump operation offset)

/-- Only two operands in memory have no width. -/
theorem Operands.width?_pair_eq_none_iff {destination : Operand} {source : Source} :
    (pair destination source).width? = none ↔
      ∃ o o', destination = .memory o ∧ source = .memory o' := by
  constructor
  · intro h
    cases destination with
    | register r => cases h
    | memory o =>
      cases source with
      | register q => cases h
      | immediate imm => cases h
      | memory o' => exact ⟨o, o', rfl, rfl⟩
  · rintro ⟨o, o', rfl, rfl⟩
    rfl

section

variable (m : Memory) (c : Cpu) {i : Instruction}

theorem effect_of_bothInMemory (h : i.BothInMemory) :
    effect m c i = .error .memoryToMemory := by
  obtain ⟨operation, operands⟩ := i
  obtain ⟨hdata, o, o', rfl⟩ := h
  cases operation with
  | mov | add | sub | cmp => rfl
  | _ => cases hdata

theorem effect_of_unimplemented (h : i.Unimplemented) :
    effect m c i = .error (.unimplemented i.operation) := by
  cases h with
  | @otherJump operation operands hjump hne =>
    cases operation with
    | mov | add | sub | cmp => cases hjump
    | jne => exact absurd rfl hne
    | _ => cases operands <;> rfl
  | jumpOnPair destination source => rfl
  | @dataOnOffset operation offset hdata =>
    cases operation with
    | mov | add | sub | cmp => rfl
    | _ => cases hdata

/-- What has a width, or is a jump on a clear zero flag, has an effect. -/
theorem exists_effect_of_not (hmemory : ¬ i.BothInMemory) (hmodel : ¬ i.Unimplemented) :
    ∃ e, effect m c i = .ok e := by
  obtain ⟨operation, operands⟩ := i
  cases hdata : operation.isRelativeJump with
  | true =>
    -- of the jumps, only the one on a clear zero flag is left, and it has an offset
    have hjne : operation = .jne := by
      by_contra hne
      exact hmodel (.otherJump hdata hne)
    subst hjne
    cases operands with
    | relative offset => exact ⟨_, rfl⟩
    | pair destination source => exact absurd (.jumpOnPair destination source) hmodel
  | false =>
    cases operands with
    | relative offset => exact absurd (.dataOnOffset offset hdata) hmodel
    | pair destination source =>
      cases hwidth : (Operands.pair destination source).width? with
      | none =>
        obtain ⟨o, o', rfl, rfl⟩ := Operands.width?_pair_eq_none_iff.1 hwidth
        exact absurd ⟨hdata, o, o', rfl⟩ hmemory
      | some w =>
        have hexecuted := (executedWidth_eq_ok_iff _ w).2 hwidth
        cases operation with
        | mov | add | sub | cmp =>
          simp only [effect, hexecuted]
          exact ⟨_, rfl⟩
        | _ => cases hdata

end

/-! ## What execution leaves -/

/-- The value of a source as an instruction of a width takes it: what does not fit is cut off, and
of an immediate first what does not fit its own width. -/
def Source.cutValue (m : Memory) (c : Cpu) (w : Width) : Source → Nat
  | .register q => c.valueOf q % 2 ^ w.bits
  | .memory o => m.valueAt w (c.addressOf o)
  | .immediate imm => imm.value.toNat % 2 ^ imm.width.bits % 2 ^ w.bits

/-- What an operation makes of two values at a width; a move takes the second. -/
def Operation.result (operation : Operation) (w : Width) (left right : Nat) : Nat :=
  match operation with
  | .add => (left + right) % 2 ^ w.bits
  | .sub | .cmp => (((left : Int) - right) % 2 ^ w.bits).toNat
  | _ => right

/-- The result of a subtraction as a number modulo the bound of the width. -/
theorem Operation.natCast_result_sub (w : Width) (left right : Nat) :
    (sub.result w left right : Int) = ((left : Int) - right) % 2 ^ w.bits :=
  Int.toNat_of_nonneg (Int.emod_nonneg _ (by positivity))

/-- What an executed instruction leaves of memory and processor. -/
inductive Leaves (m : Memory) (c : Cpu) : Instruction → Memory → Cpu → Prop
  /-- The result goes to the destination, except that a comparison stores nothing; the flags tell
  of the result, except that a move leaves them. -/
  | data {operation : Operation} {destination : Operand} {source : Source} {w : Width}
      {result : Nat} {m' : Memory} {c' : Cpu} (hdata : operation.isRelativeJump = false)
      (hw : (Operands.pair destination source).width? = some w)
      (hresult : result =
        operation.result w (destination.toSource.cutValue m c w) (source.cutValue m c w))
      (hstored : if operation = .cmp then m' = m ∧ ∀ q, c'.valueOf q = c.valueOf q
        else Stored w result destination m c m' c')
      (hflags : c'.flags = if operation = .mov then c.flags else flagsOf w result)
      (hip : c'.ip = c.ip) : Leaves m c (.pair operation destination source) m' c'
  | jump {offset : Int8} {ip : UInt16}
      (hip : (ip.toNat : Int) =
        (c.ip.toNat + if c.flags.zero then 0 else offset.toInt) % 65536) :
      Leaves m c (.jump .jne offset) m { c with ip := ip }

/-- The executor takes the cut value of a source. -/
theorem toNat_sourceValue_eq_cutValue (m : Memory) (c : Cpu) (w : Width) (source : Source) :
    (sourceValue m c w source).toNat = source.cutValue m c w := by
  cases source with
  | register q => rw [sourceValue, Width.toNat_truncate, c.toNat_read, Source.cutValue]
  | memory o =>
    have hvalue := m.valueAt_lt w (c.addressOf o)
    rw [sourceValue, Width.toNat_truncate, m.toNat_readWide, c.effectiveAddress_eq,
      Nat.mod_eq_of_lt hvalue, Source.cutValue]
  | immediate imm =>
    rw [sourceValue, Width.toNat_truncate, Immediate.read, Width.toNat_truncate, Source.cutValue]

theorem toNat_sumOf_eq_result (m : Memory) (c : Cpu) (destination : Operand) (source : Source)
    (w : Width) :
    (sumOf m c destination source w).toNat =
      Operation.result .add w (destination.toSource.cutValue m c w) (source.cutValue m c w) := by
  rw [sumOf, Width.toNat_truncate_add, toNat_sourceValue_eq_cutValue,
    toNat_sourceValue_eq_cutValue, Operation.result]

theorem toNat_differenceOf_eq_result (m : Memory) (c : Cpu) (destination : Operand)
    (source : Source) (w : Width) :
    (differenceOf m c destination source w).toNat =
      Operation.result .sub w (destination.toSource.cutValue m c w) (source.cutValue m c w) := by
  rw [Operation.result, ← toNat_sourceValue_eq_cutValue, ← toNat_sourceValue_eq_cutValue,
    ← Width.toNat_truncate_sub, Int.toNat_natCast, differenceOf]

/-- A register destination has the width of its instruction. -/
theorem Operand.hasWidth_of_width?_eq {destination : Operand} {source : Source} {w : Width}
    (h : (Operands.pair destination source).width? = some w) : destination.HasWidth w := by
  cases destination with
  | register r => exact Option.some.inj h
  | memory o => trivial

/-- Setting the flags and storing a result is what arithmetic leaves. -/
theorem leaves_arithmetic {m : Memory} {c : Cpu} {operation : Operation} {destination : Operand}
    {source : Source} {w : Width} {result : UInt16} (hop : operation = .add ∨ operation = .sub)
    (hw : (Operands.pair destination source).width? = some w) (hlt : result.toNat < 2 ^ w.bits)
    (hresult : result.toNat =
      operation.result w (destination.toSource.cutValue m c w) (source.cutValue m c w)) :
    Leaves m c (.pair operation destination source)
      ((arithmeticEffect c destination w result).onMemory m)
      ((arithmeticEffect c destination w result).onCpu c) := by
  have hstored := stored_storeTo m (e := arithmeticEffect c destination w result)
    (Operand.hasWidth_of_width?_eq hw) hlt rfl
  have hflags : ((arithmeticEffect c destination w result).onCpu c).flags =
      flagsOf w result.toNat := (Effect.flags_onCpu _ c).trans (Flags.ofResult_eq w result)
  have hip := (arithmeticEffect c destination w result).ip_onCpu c
  rcases hop with rfl | rfl
  · exact .data rfl hw hresult hstored hflags hip
  · exact .data rfl hw hresult hstored hflags hip

/-- An effect leaves what its instruction is said to leave. -/
theorem HasEffect.leaves {m : Memory} {c : Cpu} {i : Instruction} {e : Effect}
    (h : HasEffect m c i e) : Leaves m c i (e.onMemory m) (e.onCpu c) := by
  cases h with
  | @mov destination source w hw =>
    have hstored := stored_storeTo m (e := moveEffect m c destination source w)
      (Operand.hasWidth_of_width?_eq hw) (Width.toNat_truncate_lt w _) rfl
    exact .data rfl hw (toNat_sourceValue_eq_cutValue m c w source) hstored
      (Effect.flags_onCpu _ c) (Effect.ip_onCpu _ c)
  | @add destination source w hw =>
    exact leaves_arithmetic (.inl rfl) hw (Width.toNat_truncate_lt w _)
      (toNat_sumOf_eq_result m c destination source w)
  | @sub destination source w hw =>
    exact leaves_arithmetic (.inr rfl) hw (Width.toNat_truncate_lt w _)
      (toNat_differenceOf_eq_result m c destination source w)
  | @cmp destination source w hw =>
    have hflags := (Effect.flags_onCpu (compareEffect w (differenceOf m c destination source w))
      c).trans (Flags.ofResult_eq w _)
    exact .data rfl hw (toNat_differenceOf_eq_result m c destination source w)
      ⟨rfl, fun q => Effect.valueOf_onCpu _ c q⟩ hflags (Effect.ip_onCpu _ c)
  | jneTaken offset hzero =>
    refine .jump ?_
    rw [hzero, toNat_add_signed, Int8.toInt_toInt16]
    rfl
  | jneNotTaken offset hzero =>
    have hip := c.ip.toNat_lt
    -- the instruction pointer is set to where it is
    have hjump : Leaves m c (.jump .jne offset) m { c with ip := c.ip } := by
      refine .jump ?_
      rw [hzero, if_pos rfl]
      omega
    exact hjump

/-! ## The three outcomes -/

/-- Executing an instruction has three outcomes, whatever its operation and operands are. It is a
fault exactly for a data operation on two operands in memory. It fails exactly where there is no
execution model; the error names the operation, and memory and processor are as before. Everything
else is executed and leaves what `Leaves` says. -/
theorem execute_outcomes (s : Simulator) (i : Instruction) :
    let outcome := (Checked.execute i).exec s
    let result := execute s.memory s.cpu i
    ((∃ fault, outcome = .error fault) ↔ i.BothInMemory) ∧
      (result = .error .memoryToMemory ↔ i.BothInMemory) ∧
      ((∃ e t, outcome = .ok (.error e, t)) ↔ i.Unimplemented) ∧
      (i.Unimplemented → outcome = .ok (.error (.unimplemented i.operation), s) ∧
        result = .error (.unimplemented i.operation)) ∧
      (¬ i.BothInMemory → ¬ i.Unimplemented →
        ∃ m' c', outcome = .ok (.ok (), { s with memory := m', cpu := c' }) ∧
          result = .ok (m', c') ∧ Leaves s.memory s.cpu i m' c') := by
  intro outcome result
  have houtcome := Checked.exec_execute i s
  by_cases hmemory : i.BothInMemory
  · have heffect := effect_of_bothInMemory s.memory s.cpu hmemory
    have hmodel : ¬ i.Unimplemented := fun h => by
      cases heffect.symm.trans (effect_of_unimplemented s.memory s.cpu h)
    rw [heffect] at houtcome
    have hresult : result = .error .memoryToMemory := by
      simp only [result, execute, heffect, Except.map]
    simp only [outcome, houtcome, hresult]
    simp [hmemory, hmodel]
  · by_cases hmodel : i.Unimplemented
    · have heffect := effect_of_unimplemented s.memory s.cpu hmodel
      rw [heffect] at houtcome
      have hresult : result = .error (.unimplemented i.operation) := by
        simp only [result, execute, heffect, Except.map]
      simp only [outcome, houtcome, hresult]
      simp [hmemory, hmodel]
    · obtain ⟨e, heffect⟩ := exists_effect_of_not s.memory s.cpu hmemory hmodel
      rw [heffect] at houtcome
      have hresult : result = .ok (e.onMemory s.memory, e.onCpu s.cpu) := by
        simp only [result, execute, heffect, Except.map]
      have hleaves := (hasEffect_of_effect heffect).leaves
      simp only [outcome, houtcome, hresult]
      simp [hmemory, hmodel, hleaves, Checked.apply]

/-- `mov al, bx` has no encoding and is executed all the same: `al` takes the low half of `bx`. -/
theorem execute_outcomes_mov_al_bx :
    let i := Instruction.pair .mov (.register .al) (.register .bx)
    let s : Simulator := { cpu := { ax := 0xFF00, bx := 0x1234 } }
    ¬ i.BothInMemory ∧ ¬ i.Unimplemented ∧
      Leaves s.memory s.cpu i .zero { ax := 0xFF34, bx := 0x1234 } := by
  intro i s
  have hmemory : ¬ i.BothInMemory := by
    rintro ⟨-, o, o', h⟩
    cases h
  have hmodel : ¬ i.Unimplemented := by
    show ¬ Instruction.Unimplemented ⟨.mov, .pair (.register .al) (.register .bx)⟩
    rintro (⟨hjump, -⟩ | _ | _)
    cases hjump
  have hexecute : execute .zero { ax := 0xFF00, bx := 0x1234 } i =
      .ok (.zero, { ax := 0xFF34, bx := 0x1234 }) := rfl
  obtain ⟨m', c', -, hresult, hleaves⟩ := (execute_outcomes s i).2.2.2.2 hmemory hmodel
  cases hexecute.symm.trans hresult
  exact ⟨hmemory, hmodel, hleaves⟩

end Machine8086
