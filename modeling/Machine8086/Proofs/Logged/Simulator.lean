import Machine8086.Logged.Simulator
import Machine8086.Proofs.Checked.Execution
import Machine8086.Proofs.Logged.Action

/-!
# Operations with their log calls

What each operation does whatever the log is: it has the result and leaves the simulator of the
model, and it offers the entries of the events of the model.
-/

namespace Machine8086.Logged

open LoggedAction

variable {ε : Type} {s : Simulator}

/-! ## Decoding, loading and estimating -/

theorem does_decode (address : UInt16) (stop : Nat) (s : Simulator) :
    (decode address stop).Does s (Machine8086.decode s.memory address stop) s
      (entriesOf (decodeEvents (Machine8086.decode s.memory address stop))) := by
  rw [decode]
  apply Does.getSimulator_bind
  cases Machine8086.decode s.memory address stop with
  | ok d => exact .log_bind (does_pure d s)
  | error e =>
    cases e with
    | endOfStream => exact does_throw _ s
    | unknownOpcode opcode address => exact .log_bind (does_throw _ s)
    | missingBytes address needed => exact .log_bind (does_throw _ s)

/-- Bytes are placed in memory if there is room, and otherwise memory stays. -/
theorem does_loadMemory (bytes : List UInt8) (start : UInt16) (s : Simulator) :
    (loadMemory bytes start).Does s ((s.memory.load bytes start).map fun _ => bytes.length)
      { s with memory := (s.memory.load bytes start).toOption.getD s.memory }
      (entriesOf (loadEvents bytes start)) := by
  rw [Memory.load, loadMemory, loadEvents]
  by_cases hspace : start.toNat + bytes.length ≤ addressSpace
  · rw [if_pos hspace, if_pos hspace]
    apply Does.getSimulator_bind
    rw [if_neg (Nat.not_lt.2 hspace)]
    exact .setSimulator_bind (.log_bind (does_pure _ _))
  · rw [if_neg hspace, if_neg hspace]
    apply Does.getSimulator_bind
    rw [if_pos (Nat.lt_of_not_le hspace)]
    exact .log_bind (.bind_of_error (does_throw _ s))

theorem does_load (program : List UInt8) (start : UInt16) (s : Simulator) :
    (load program start).Does s ((s.load program start).map fun _ => program.length)
      ((s.load program start).toOption.getD s) (entriesOf (loadEvents program start)) := by
  have hmemory := does_loadMemory program start s
  rw [Simulator.load]
  cases hload : s.memory.load program start with
  | ok memory =>
    rw [hload] at hmemory
    exact hmemory.bind_silent (.getSimulator_bind (.setSimulator_bind (does_pure _ _)))
  | error e =>
    rw [hload] at hmemory
    exact hmemory.bind_of_error

theorem does_estimate (i : Instruction) (s : Simulator) :
    (estimate i).Does s i.estimate s (entriesOf i.clockEvents) := by
  rw [estimate, Instruction.estimate, Instruction.clockEvents]
  cases i.clocks? with
  | some clocks => exact .log_bind (does_pure clocks s)
  | none => exact does_throw _ s

/-! ## Execution -/

theorem does_updateFlags (width : Width) (result : UInt16) (s : Simulator) :
    (updateFlags width result : LoggedAction ε Unit).Does s (.ok ())
      { s with cpu := { s.cpu with flags := .ofResult width result } }
      (entriesOf [.flagsSet (.ofResult width result)]) :=
  .getSimulator_bind (.setSimulator_bind (.getSimulator_bind (does_log _ _ _ _)))

/-- A register that was written is read as the value cut to its width. -/
theorem read_write_register (c : Cpu) (r : Register) (value : UInt16) :
    (c.write r value).read r = r.width.truncate value := by
  rw [← UInt16.toNat_inj, Cpu.toNat_read, Cpu.valueOf_write_self, Width.toNat_truncate]

theorem does_writeDestination (width : Width) (value : UInt16) (destination : Operand)
    (s : Simulator) :
    (writeDestination width value destination : LoggedAction ε Store).Does s
      (.ok (storeTo s.cpu width value destination))
      (Checked.apply { store := some (storeTo s.cpu width value destination) } s)
      (entriesOf [.stored (storeTo s.cpu width value destination)]) := by
  cases destination with
  | register r =>
    have htext : (Event.stored (.register r value)).text =
        r.name ++ " <- 0x" ++ Event.addressText ((s.cpu.write r value).read r) := by
      rw [read_write_register]
      rfl
    have hentry : entriesOf [.stored (.register r value)] = [⟨.execution, .trace,
        r.name ++ " <- 0x" ++ Event.addressText ((s.cpu.write r value).read r)⟩] := by
      rw [← htext]
      rfl
    rw [storeTo, hentry]
    exact .getSimulator_bind (.setSimulator_bind (.getSimulator_bind (.log_bind (does_pure _ _))))
  | memory o =>
    apply Does.getSimulator_bind
    cases width with
    | byte => exact .setSimulator_bind (.log_bind (does_pure _ _))
    | word => exact .setSimulator_bind (.log_bind (does_pure _ _))

/-- The flags are set and told of, and then the store. -/
theorem does_storeResult (width : Width) (result : UInt16) (destination : Operand)
    (s : Simulator) :
    (storeResult width result destination : LoggedAction ε Effect).Does s
      (.ok (arithmeticEffect s.cpu destination width result))
      (Checked.apply (arithmeticEffect s.cpu destination width result) s)
      (entriesOf ((arithmeticEffect s.cpu destination width result).events s.cpu.ip)) := by
  -- the store does not look at the flags, so it may be worked out before they are set
  have hflags := @does_updateFlags ε width result s
  have hstore := @does_writeDestination ε width result destination
    { s with cpu := { s.cpu with flags := .ofResult width result } }
  rw [Checked.storeTo_set_flags] at hstore
  have happly : Checked.apply { store := some (storeTo s.cpu width result destination) }
      { s with cpu := { s.cpu with flags := .ofResult width result } } =
        Checked.apply (arithmeticEffect s.cpu destination width result) s := by
    cases destination <;> rfl
  rw [happly] at hstore
  exact hflags.bind (hstore.bind (does_pure _ _))

/-- Executing an instruction has its effect, or fails without any. -/
theorem does_execute (i : Instruction) (s : Simulator) :
    (execute i).Does s (effect s.memory s.cpu i)
      ((effect s.memory s.cpu i).toOption.elim s fun e => Checked.apply e s)
      (entriesOf ((effect s.memory s.cpu i).toOption.elim [] fun e => e.events s.cpu.ip)) := by
  obtain ⟨operation, operands⟩ := i
  cases operands with
  | relative offset =>
    cases operation with
    | jne =>
      rw [execute, effect]
      cases hzero : s.cpu.flags.zero with
      | true =>
        apply Does.getSimulator_bind
        dsimp only
        rw [hzero]
        exact does_pure _ s
      | false =>
        apply Does.getSimulator_bind
        dsimp only
        rw [hzero]
        exact .log_bind (.setSimulator_bind (does_pure _ _))
    | _ => exact Does.getSimulator_bind (does_throw _ s)
  | pair destination source =>
    have hwidth := does_ofExcept (Operands.pair destination source).executedWidth s
    cases hexecuted : (Operands.pair destination source).executedWidth with
    | error e =>
      rw [hexecuted] at hwidth
      cases operation with
      | mov | add | sub | cmp =>
        simp only [effect, execute, hexecuted]
        exact Does.getSimulator_bind hwidth.bind_of_error
      | _ => exact Does.getSimulator_bind (does_throw _ s)
    | ok width =>
      rw [hexecuted] at hwidth
      cases operation with
      | mov =>
        simp only [effect, execute, hexecuted]
        exact Does.getSimulator_bind (hwidth.bind
          ((does_writeDestination width _ destination s).bind (does_pure _ _)))
      | add =>
        simp only [effect, execute, hexecuted]
        exact Does.getSimulator_bind (hwidth.bind (does_storeResult width _ destination s))
      | sub =>
        simp only [effect, execute, hexecuted]
        exact Does.getSimulator_bind (hwidth.bind (does_storeResult width _ destination s))
      | cmp =>
        simp only [effect, execute, hexecuted]
        exact Does.getSimulator_bind (hwidth.bind
          ((does_updateFlags width _ s).bind (does_pure _ _)))
      | _ => exact Does.getSimulator_bind (does_throw _ s)

/-! ## Steps -/

/-- A step is carried out and its events told. If it fails, the processor is what it was. -/
theorem does_stepWithin (stop : Nat) (s : Simulator) :
    match s.preview stop with
    | .ok step => (stepWithin stop).Does s (.ok step) (s.commit step) (entriesOf step.events)
    | .error e => (stepWithin stop).Does s (.error e) s (entriesOf e.events) := by
  have hdecode := (does_decode s.cpu.ip stop s).mapError StepError.decode
  rw [Simulator.preview]
  cases hd : Machine8086.decode s.memory s.cpu.ip stop with
  | error e =>
    rw [hd] at hdecode
    exact Does.getSimulator_bind hdecode.bind_of_error
  | ok d =>
    rw [hd] at hdecode
    -- the instruction is executed with the instruction pointer behind it
    have hexecute := does_execute d.instruction { s with cpu := { s.cpu with ip := d.next } }
    dsimp only at hexecute ⊢
    cases heffect : effect s.memory { s.cpu with ip := d.next } d.instruction with
    | error e =>
      rw [heffect] at hexecute
      exact Does.getSimulator_bind (hdecode.bind (.setSimulator_bind
        (hexecute.attempt.bind (.getSimulator_bind (.setSimulator_bind
          (.log_bind (does_throw _ _)))))))
    | ok e =>
      rw [heffect] at hexecute
      have hevents : entriesOf (Step.events { d with
          effect := e, before := s.cpu, after := e.onCpu { s.cpu with ip := d.next } }) =
          entriesOf [.decoded d] ++ entriesOf (e.events d.next) := by
        rw [← entriesOf_append, Step.events, Option.toList_none, List.map_nil, List.append_nil]
        rfl
      dsimp only
      rw [hevents]
      exact Does.getSimulator_bind (hdecode.bind (.setSimulator_bind
        (hexecute.attempt.bind_silent (.getSimulator_bind (does_pure _ _)))))

/-- Several steps: each tells its events, and then the one that fails. -/
theorem does_stepMany (count : Nat) (s : Simulator) :
    (stepMany count : LoggedAction ε (List Step × Option StepError)).Does s
      (.ok ((s.stepMany count).1, (s.stepMany count).2.1)) (s.stepMany count).2.2
      (entriesOf ((s.stepMany count).1.flatMap Step.events) ++
        entriesOf ((s.stepMany count).2.1.toList.flatMap StepError.events)) := by
  induction count generalizing s with
  | zero => exact does_pure _ s
  | succ count ih =>
    have hstep := does_stepWithin addressSpace s
    rw [Simulator.stepMany, stepMany]
    cases hpreview : s.preview addressSpace with
    | error e =>
      rw [hpreview] at hstep
      dsimp only
      rw [Option.toList_some, List.flatMap_singleton]
      exact hstep.attempt.bind_silent (does_pure _ s)
    | ok step =>
      rw [hpreview] at hstep
      dsimp only
      rw [List.flatMap_cons, entriesOf_append, List.append_assoc]
      exact hstep.attempt.bind ((ih (s.commit step)).bind_silent (does_pure _ _))

end Machine8086.Logged
