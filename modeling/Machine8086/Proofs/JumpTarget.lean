import Machine8086.Proofs.Checked.Simulator
import Machine8086.Proofs.Numeral
import Machine8086.Proofs.Outcomes
import Machine8086.Proofs.SingleEncoding
import Machine8086.Proofs.Text

/-!
# Jump targets

The text of a jump names its target relative to the first byte of the jump, the processor adds the
offset to an instruction pointer that stands behind it. Both come to the same address. The text is
`$+` or `$-` and a decimal number (`NamesTarget`), from which the target can be read back
(`targetOf?`). A jump on a clear zero flag goes there if the flag is clear and to the next
instruction if it is set (`Simulator.step_jne`); the other jumps are not executed.
`jump_goes_where_text_says` is the conclusion.
-/

namespace Machine8086

/-! ## Texts of jumps -/

/-- The text names a target, counted from the first byte of the jump. -/
inductive NamesTarget (operation : Operation) : String → Int → Prop
  | forward (n : Nat) :
      NamesTarget operation (operation.mnemonic ++ " $+" ++ Numeral.decimal n) n
  | backward {n : Nat} (hn : 0 < n) :
      NamesTarget operation (operation.mnemonic ++ " $-" ++ Numeral.decimal n) (-n)

/-- The target that a text names behind its first blank. -/
def targetOf? (text : String) : Option Int :=
  match text.toList.dropWhile (· ≠ ' ') with
  | ' ' :: '$' :: '+' :: digits => (Numeral.ofDigits? 10 digits).map fun n : Nat => (n : Int)
  | ' ' :: '$' :: '-' :: digits => (Numeral.ofDigits? 10 digits).map fun n : Nat => -(n : Int)
  | _ => none

/-- The text of a jump names the place at its offset from the end of the two-byte jump. -/
theorem namesTarget_text (operation : Operation) (offset : Int8) :
    NamesTarget operation (Instruction.jump operation offset).text (offset.toInt + 2) := by
  have htext : (Instruction.jump operation offset).text =
      operation.mnemonic ++ " " ++ jumpTargetText offset := rfl
  rw [htext, jumpTargetText]
  by_cases h : 0 ≤ offset.toInt + 2
  · have hforward := @NamesTarget.forward operation (offset.toInt + 2).natAbs
    rw [Int.natAbs_of_nonneg h, show " $+" = " " ++ "$+" from rfl] at hforward
    simpa only [h, if_true, String.append_assoc] using hforward
  · have hpos : 0 < (offset.toInt + 2).natAbs := by omega
    have hbackward := @NamesTarget.backward operation _ hpos
    rw [show -((offset.toInt + 2).natAbs : Int) = offset.toInt + 2 by omega,
      show " $-" = " " ++ "$-" from rfl] at hbackward
    simpa only [h, if_false, String.append_assoc] using hbackward

/-- A number is read back from its digits. -/
theorem ofDigits?_decimal (n : Nat) :
    Numeral.ofDigits? 10 (Numeral.decimal n).toList = some n := by
  rw [Numeral.decimal, String.toList_ofList]
  exact Numeral.ofDigits?_toDigits (by decide) (by decide) n

/-- The named target is what is read from the text. -/
theorem NamesTarget.targetOf?_eq {operation : Operation} {text : String} {target : Int}
    (h : NamesTarget operation text target) : targetOf? text = some target := by
  -- no mnemonic contains a blank, so the first one stands behind it
  have hdrop : ∀ {operands : String} {cs : List Char}, operands.toList = ' ' :: cs →
      (operation.mnemonic ++ operands).toList.dropWhile (· ≠ ' ') = ' ' :: cs := by
    intro operands cs hoperands
    have hblank := operation.not_mem_mnemonic.1
    rw [String.toList_append, hoperands, List.dropWhile_append_of_pos]
    · rfl
    · exact fun c hc => decide_eq_true fun e => hblank (e ▸ hc)
  cases h with
  | forward n =>
    have hoperands : (" $+" ++ Numeral.decimal n).toList =
        ' ' :: '$' :: '+' :: (Numeral.decimal n).toList := String.toList_append ..
    rw [targetOf?, String.append_assoc, hdrop hoperands]
    show (Numeral.ofDigits? 10 (Numeral.decimal n).toList).map (fun n : Nat => (n : Int)) = _
    rw [ofDigits?_decimal, Option.map_some]
  | @backward n hn =>
    have hoperands : (" $-" ++ Numeral.decimal n).toList =
        ' ' :: '$' :: '-' :: (Numeral.decimal n).toList := String.toList_append ..
    rw [targetOf?, String.append_assoc, hdrop hoperands]
    show (Numeral.ofDigits? 10 (Numeral.decimal n).toList).map (fun n : Nat => -(n : Int)) = _
    rw [ofDigits?_decimal, Option.map_some]

/-! ## Steps of jumps -/

/-- What is decoded as a jump has an offset and two bytes. -/
theorem jump_of_decode {m : Memory} {address : UInt16} {stop : Nat} {d : Decoded}
    (hdecode : decode m address stop = .ok d)
    (hjump : d.instruction.operation.isRelativeJump = true) :
    ∃ offset, d.instruction = .jump d.instruction.operation offset ∧ d.size = 2 := by
  obtain ⟨-, -, hencodes⟩ := (decode_eq_ok_iff m address stop d).1 hdecode
  have hwell := hencodes.wellFormed
  obtain ⟨start, size, operation, operands⟩ := d
  cases operands with
  | pair destination source => cases hjump.symm.trans hwell.1
  | relative offset =>
    refine ⟨offset, rfl, ?_⟩
    rcases Encodes.of_jump hencodes with ⟨cccc, -, hbytes⟩ | ⟨cc, -, hbytes⟩
    · simpa using congrArg List.length hbytes
    · simpa using congrArg List.length hbytes

/-- A jump on a clear zero flag adds its offset if the flag is clear and nothing if it is set. -/
theorem exists_execute_jne (m : Memory) (c : Cpu) (offset : Int8) :
    ∃ ip : UInt16, execute m c (.jump .jne offset) = .ok (m, { c with ip := ip }) ∧
      (ip.toNat : Int) = (c.ip.toNat + if c.flags.zero then 0 else offset.toInt) % 65536 := by
  have hwell : (Instruction.jump .jne offset).WellFormed := rfl
  have hexecutable : Operation.jne ∈ executable := by decide
  obtain ⟨e, heffect⟩ := exists_effect m c hwell hexecutable
  have hleaves := (hasEffect_of_effect heffect).leaves
  rw [execute, heffect, Except.map]
  generalize e.onMemory m = m', e.onCpu c = c' at hleaves ⊢
  cases hleaves with
  | jump hip => exact ⟨_, rfl, hip⟩

/-- A step of a jump on a clear zero flag changes the instruction pointer only: it goes by the
offset and the two bytes of the jump if the flag is clear, and else by these. -/
theorem Simulator.step_jne {s : Simulator} {d : Decoded} {offset : Int8}
    (hdecode : decode s.memory s.cpu.ip addressSpace = .ok d)
    (hjne : d.instruction = .jump .jne offset) :
    ∃ (step : Step) (ip : UInt16), step.toDecoded = d ∧
      s.step = .ok (step, { s with cpu := { s.cpu with ip := ip } }) ∧
      (ip.toNat : Int) =
        (s.cpu.ip.toNat + if s.cpu.flags.zero then 2 else offset.toInt + 2) % 65536 := by
  obtain ⟨-, -, hsize⟩ := jump_of_decode hdecode (by rw [hjne]; rfl)
  have hnext : d.next.toNat = (s.cpu.ip.toNat + 2) % 65536 := by
    rw [d.next_eq_ofNat, (decode_eq_ok hdecode).1, hsize, UInt16.toNat_ofNat']
  obtain ⟨ip, hexecute, hip⟩ :=
    exists_execute_jne s.memory { s.cpu with ip := d.next } offset
  rw [← hjne] at hexecute
  obtain ⟨step, hstep, hdecoded⟩ := step_of_execute hdecode hexecute
  refine ⟨step, ip, hdecoded, hstep, hip.trans ?_⟩
  dsimp only
  rw [hnext]
  cases s.cpu.flags.zero with
  | false =>
    rw [if_neg Bool.false_ne_true, if_neg Bool.false_ne_true]
    omega
  | true =>
    rw [if_pos rfl, if_pos rfl]
    omega

/-- A jump of any other operation fails, and the simulator is as it was. -/
theorem Simulator.step_of_other_jump {s : Simulator} {d : Decoded}
    (hdecode : decode s.memory s.cpu.ip addressSpace = .ok d)
    (hjump : d.instruction.operation.isRelativeJump = true) (hne : d.instruction.operation ≠ .jne) :
    let e := StepError.execute d (.unimplemented d.instruction.operation)
    s.step = .error e ∧ Checked.step.exec s = .ok (.error e, s) := by
  intro e
  have heffect : effect s.memory { s.cpu with ip := d.next } d.instruction =
      .error (.unimplemented d.instruction.operation) :=
    effect_of_unimplemented _ _ (.otherJump hjump hne)
  have hpreview : s.preview addressSpace = .error e := by
    rw [preview, hdecode]
    dsimp only
    rw [heffect]
  constructor
  · rw [Simulator.step, stepWithin, hpreview]
    rfl
  · rw [Checked.step, Checked.exec_stepWithin, hpreview]

/-! ## The conclusion -/

/-- Jumps have a text for each of their offsets, which names the target counted from the first byte
of the jump and from which this is read back. In a state where a jump stands at the instruction
pointer, one on a clear zero flag goes to the target in its text if the flag is clear, and to the
next instruction if it is set; any other fails and leaves the state as it was. -/
theorem jump_goes_where_text_says :
    (∀ (operation : Operation) (offset : Int8), operation.isRelativeJump = true →
      let jump := Instruction.jump operation offset
      jump.Decodable ∧ NamesTarget operation jump.text (offset.toInt + 2) ∧
        targetOf? jump.text = some (offset.toInt + 2)) ∧
    ∀ (s : Simulator) (d : Decoded),
      decode s.memory s.cpu.ip addressSpace = .ok d →
      d.instruction.operation.isRelativeJump = true →
      ∃ (offset : Int8) (target : Int),
        d.instruction = .jump d.instruction.operation offset ∧ target = offset.toInt + 2 ∧
        NamesTarget d.instruction.operation d.instruction.text target ∧
        targetOf? d.instruction.text = some target ∧
        (d.instruction.operation = .jne →
          ∃ (step : Step) (ip : UInt16), step.toDecoded = d ∧
            s.step = .ok (step, { s with cpu := { s.cpu with ip := ip } }) ∧
            (ip.toNat : Int) =
              (s.cpu.ip.toNat + if s.cpu.flags.zero then 2 else target) % 65536) ∧
        (d.instruction.operation ≠ .jne →
          let e := StepError.execute d (.unimplemented d.instruction.operation)
          s.step = .error e ∧ Checked.step.exec s = .ok (.error e, s)) := by
  constructor
  · intro operation offset hjump jump
    have hnames := namesTarget_text operation offset
    exact ⟨(Instruction.decodable_iff_wellFormed _).2 hjump, hnames, hnames.targetOf?_eq⟩
  · intro s d hdecode hjump
    obtain ⟨offset, hinstruction, -⟩ := jump_of_decode hdecode hjump
    have hnames : NamesTarget d.instruction.operation d.instruction.text (offset.toInt + 2) := by
      have htext := namesTarget_text d.instruction.operation offset
      rwa [← hinstruction] at htext
    refine ⟨offset, _, hinstruction, rfl, hnames, hnames.targetOf?_eq, ?_, ?_⟩
    · intro hjne
      rw [hjne] at hinstruction
      exact Simulator.step_jne hdecode hinstruction
    · intro hne
      exact Simulator.step_of_other_jump hdecode hjump hne

/-- A jump at the bottom of memory, back to a place at its top. -/
theorem jump_goes_where_text_says_top :
    let s : Simulator := { memory := Memory.zero.writeBytes 0 [0x75, 0x80] }
    ∃ (d : Decoded) (step : Step), decode s.memory s.cpu.ip addressSpace = .ok d ∧
      d.instruction.text = "jne $-126" ∧
      s.step = .ok (step, { s with cpu := { ip := 65410 } }) := by
  intro s
  let d : Decoded := ⟨0, 2, .jump .jne (-128)⟩
  have hdecode : decode s.memory s.cpu.ip addressSpace = .ok d := by decide
  have htext : d.instruction.text = "jne $-126" := by decide
  obtain ⟨offset, target, -, -, -, hread, hjne, -⟩ := jump_goes_where_text_says.2 s d hdecode rfl
  obtain ⟨step, ip, -, hstep, hip⟩ := hjne rfl
  have htarget : target = -126 := by
    have hback : targetOf? d.instruction.text = some (-126) := by decide
    exact Option.some.inj (hread.symm.trans hback)
  have hip' : ip = 65410 := by
    subst htarget
    exact UInt16.toNat_inj.1 (Int.natCast_inj.1 hip)
  subst hip'
  exact ⟨d, step, hdecode, htext, hstep⟩

end Machine8086
