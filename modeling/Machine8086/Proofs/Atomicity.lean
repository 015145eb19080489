import Machine8086.Proofs.Safety

/-!
# Calls that fail change nothing

An operation in place may change the simulator before it fails: a step has moved the instruction
pointer past an instruction when that turns out not to be executed, and a listing has written some
of its lines. Yet a call that fails leaves the simulator as it found it (`atomicAt_perform`), a run
apart, and a listing leaves it so whatever its writer does. So the call of a session that fails
changes only the log (`failed_calls_change_nothing`).
-/

namespace Machine8086.Checked

/-! ## Atomic actions -/

namespace Action

variable {σ ε ε' α : Type} {action : Action σ ε α} {s s' : σ}

/-- On this state the action has no fault, and if it fails then with the state as it was. -/
def AtomicAt (action : Action σ ε α) (s : σ) : Prop :=
  ∃ result s', action.exec s = .ok (result, s') ∧ ∀ e, result = .error e → s' = s

theorem atomicAt_of_ok {a : α} (h : action.exec s = .ok (.ok a, s')) : action.AtomicAt s :=
  ⟨.ok a, s', h, nofun⟩

theorem atomicAt_of_unchanged {result : Except ε α} (h : action.exec s = .ok (result, s)) :
    action.AtomicAt s :=
  ⟨result, s, h, fun _ _ => rfl⟩

theorem AtomicAt.mapError (h : action.AtomicAt s) (f : ε → ε') :
    (action.mapError f).AtomicAt s := by
  obtain ⟨result, s', hexec, hunchanged⟩ := h
  refine ⟨_, s', exec_mapError f hexec, fun e he => ?_⟩
  cases result with
  | ok a => cases he
  | error e => exact hunchanged e rfl

theorem AtomicAt.withoutResult (h : action.AtomicAt s) : action.withoutResult.AtomicAt s := by
  obtain ⟨result, s', hexec, hunchanged⟩ := h
  refine ⟨_, s', exec_withoutResult hexec, fun e he => ?_⟩
  cases result with
  | ok a => cases he
  | error e => exact hunchanged e rfl

end Action

/-! ## The operations -/

theorem atomicAt_load (program : List UInt8) (start : UInt16) (s : Simulator) :
    (load program start).AtomicAt s := by
  have hload := exec_load program start s
  cases hmodel : s.load program start with
  | ok t =>
    rw [hmodel] at hload
    exact Action.atomicAt_of_ok hload
  | error e =>
    rw [hmodel] at hload
    exact Action.atomicAt_of_unchanged hload

/-- The processor is taken back if an instruction is not executed, and it has stored nothing. -/
theorem atomicAt_step (s : Simulator) : step.AtomicAt s := by
  have hstep := exec_stepWithin addressSpace s
  cases hpreview : s.preview addressSpace with
  | ok step =>
    rw [hpreview] at hstep
    exact Action.atomicAt_of_ok hstep
  | error e =>
    rw [hpreview] at hstep
    exact Action.atomicAt_of_unchanged hstep

theorem atomicAt_decodeOne (address : UInt16) (s : Simulator) : (decodeOne address).AtomicAt s :=
  Action.atomicAt_of_unchanged (exec_decodeOne address s)

theorem atomicAt_disassemble {s : Simulator} (hextent : s.ExtentInMemory) :
    disassemble.AtomicAt s :=
  Action.atomicAt_of_unchanged (exec_disassemble hextent)

theorem atomicAt_loadState (snapshot : Json) (s : Simulator) : (loadState snapshot).AtomicAt s := by
  have hsnapshot := exec_loadState snapshot s
  cases hmodel : s.loadState snapshot with
  | ok t =>
    rw [hmodel] at hsnapshot
    exact Action.atomicAt_of_ok hsnapshot
  | error e =>
    rw [hmodel] at hsnapshot
    exact Action.atomicAt_of_unchanged hsnapshot

/-- Every call but a run is atomic. -/
theorem atomicAt_perform {s : Simulator} (hextent : s.ExtentInMemory) {call : Call}
    (hrun : ∀ config, call ≠ .run config) : call.perform.AtomicAt s := by
  cases call with
  | load program start => exact ((atomicAt_load program start s).mapError _).withoutResult
  | step => exact ((atomicAt_step s).mapError _).withoutResult
  | run config => exact absurd rfl (hrun config)
  | decodeOne address => exact ((atomicAt_decodeOne address s).mapError _).withoutResult
  | disassemble => exact ((atomicAt_disassemble hextent).mapError _).withoutResult
  | loadState snapshot => exact (atomicAt_loadState snapshot s).mapError _
  | setRegister r value => exact Action.atomicAt_of_ok (exec_setRegister r value s)
  | _ => exact Action.atomicAt_of_ok rfl

/-- A listing leaves the simulator alone, whatever its writer does. -/
theorem exec_disassembleTo_unchanged {ω ε : Type} (writer : Writer ω ε) {s : Simulator}
    (hextent : s.ExtentInMemory) (w : ω) :
    ∃ result w', (disassembleTo writer).exec (s, w) = .ok (result, s, w') := by
  rw [exec_disassembleTo hextent]
  match putAll writer (pieces s.listing) w with
  | (.error e, w') => exact ⟨_, w', rfl⟩
  | (.ok (), w') =>
    rw [listingEnd]
    cases s.listing.failure with
    | none => exact ⟨_, w', rfl⟩
    | some e => exact ⟨_, w', rfl⟩

/-! ## Calls that fail -/

/-- What the call of a session does if it fails is what it does in place. -/
theorem simulator_perform_of_error {session : Session} (hextent : session.simulator.ExtentInMemory)
    {call : Call} (hrun : ∀ config, call ≠ .run config) {failure : Failure}
    (hfailure : (session.perform call.request).1.result = .error failure) :
    (session.perform call.request).2.simulator = session.simulator := by
  obtain ⟨result, s', hexec, hunchanged⟩ := atomicAt_perform hextent hrun
  -- the session is where the call in place ends
  have hperform := exec_perform hextent fun config hcall => absurd hcall (hrun config)
  rw [hexec, Except.ok.injEq, Prod.mk.injEq] at hperform
  obtain ⟨hresult, hs'⟩ := hperform
  rw [← hs']
  exact hunchanged failure (hresult.trans hfailure)

/-- Whatever a session has been asked for before, a call other than a run has no fault, and if it
fails the simulator is as it was, in place and in the session. A listing to a writer that may fail
at any time never touches the simulator. -/
theorem failed_calls_change_nothing (requests : List Request) :
    let session := (Session.performAll {} requests).2
    let s := session.simulator
    (∀ call : Call, (∀ config, call ≠ .run config) → call.perform.AtomicAt s ∧
        ∀ failure, (session.perform call.request).1.result = .error failure →
          (session.perform call.request).2.simulator = s) ∧
      ∀ (ω ε : Type) (writer : Writer ω ε) (w : ω), ∃ result w',
        (disassembleTo writer).exec (s, w) = .ok (result, s, w') := by
  intro session s
  have hextent : s.ExtentInMemory := Session.extentInMemory_performAll extentInMemory_new requests
  constructor
  · intro call hrun
    exact ⟨atomicAt_perform hextent hrun, fun _ => simulator_perform_of_error hextent hrun⟩
  · intro ω ε writer w
    exact exec_disassembleTo_unchanged writer hextent w

/-- `je` is decoded but not executed. The step at it fails behind the jump and leaves the simulator
as it was, and so does a listing to a writer that takes nothing. -/
theorem failed_calls_change_nothing_je :
    let session := (Session.performAll {} [.load [0x74, 0x02] 0]).2
    let s := session.simulator
    (session.perform Call.step.request).1.result = .error (.execute (.unimplemented .je)) ∧
      (session.perform Call.step.request).2.simulator = s ∧ Call.step.perform.AtomicAt s ∧
      ∃ result w', (disassembleTo fun _ w => (.error "full", w)).exec (s, ()) =
        .ok (result, s, w') := by
  have hfailure :
      ((Session.performAll {} [.load [0x74, 0x02] 0]).2.perform Call.step.request).1.result =
        .error (.execute (.unimplemented .je)) := by rfl
  obtain ⟨hcalls, hlisting⟩ := failed_calls_change_nothing [.load [0x74, 0x02] 0]
  obtain ⟨hstep, hunchanged⟩ := hcalls .step nofun
  exact ⟨hfailure, hunchanged _ hfailure, hstep, hlisting ..⟩

end Machine8086.Checked
