import Machine8086.Checked.Call
import Machine8086.Proofs.Checked.Listing
import Machine8086.Proofs.Checked.Run

/-!
# Calls and requests

A call in place and the request for it to a session come to the same: they succeed or fail alike and
leave the same simulator (`exec_perform`). The log of the session, which calls do not have, changes
nothing in this.
-/

namespace Machine8086

/-- The failure that a reply tells of. -/
def Reply.failure? : Reply → Option Failure
  | failed failure => some failure
  | stepped _ failure => failure
  | written ⟨_, .error e⟩ => some (.write e)
  | traced _ (.error failure) => some failure
  | _ => none

/-- Whether a request succeeded, or its failure. -/
def Reply.result (reply : Reply) : Except Failure Unit :=
  match reply.failure? with
  | some failure => .error failure
  | none => .ok ()

namespace Checked

theorem exec_setRegister {ε : Type} (r : Register) (value : UInt16) (s : Simulator) :
    (setRegister r value : Action Simulator ε Unit).exec s =
      .ok (.ok (), { s with cpu := s.cpu.write r value }) := by
  rw [setRegister, Action.exec_bind_of_ok (Action.exec_get s), writeRegister_eq]
  rfl

theorem exec_loadState (snapshot : Json) (s : Simulator) :
    (loadState snapshot).exec s =
      match s.loadState snapshot with
      | .ok t => .ok (.ok (), t)
      | .error e => .ok (.error e, s) := by
  rw [loadState, Simulator.loadState]
  cases Snapshot.read snapshot with
  | ok cpu => rfl
  | error e => rfl

/-- Logging a run changes nothing in it. -/
theorem runLogged_eq_trace (s : Simulator) (config : RunConfig) (log : Log) :
    (s.runLogged config log).simulator = (s.trace config).simulator ∧
      (s.runLogged config log).outcome = (s.trace config).outcome := by
  rw [Simulator.runLogged, Simulator.runWith_eq_trace]
  exact ⟨rfl, rfl⟩

variable {session : Session}

/-- A call does what the request for it does: it fails alike, and with the same simulator after it.
It has no faults while the extent of the program is in memory, if a run is not too long. -/
theorem exec_perform {call : Call} (hextent : session.simulator.ExtentInMemory)
    (hshort : ∀ config, call = .run config → (session.simulator.trace config).steps < 2 ^ 59) :
    call.perform.exec session.simulator =
      .ok ((session.perform call.request).1.result,
        (session.perform call.request).2.simulator) := by
  cases call with
  | load program start =>
    have hload := exec_load program start session.simulator
    have hlogged : (session.report (loadEvents program start)).simulator = session.simulator := rfl
    rw [Call.request, Session.perform, hlogged]
    cases hmodel : session.simulator.load program start with
    | ok t =>
      rw [hmodel] at hload
      exact Action.exec_withoutResult (Action.exec_mapError _ hload)
    | error e =>
      rw [hmodel] at hload
      exact Action.exec_withoutResult (Action.exec_mapError _ hload)
  | step =>
    have hstep := exec_stepWithin addressSpace session.simulator
    rw [Call.request, Session.perform, Simulator.stepMany]
    cases hmodel : session.simulator.preview addressSpace with
    | ok step =>
      rw [hmodel] at hstep
      exact Action.exec_withoutResult (Action.exec_mapError _ hstep)
    | error e =>
      rw [hmodel] at hstep
      exact Action.exec_withoutResult (Action.exec_mapError _ hstep)
  | run config =>
    have hrun := exec_run session.simulator config (hshort config rfl)
    obtain ⟨hsimulator, houtcome⟩ := runLogged_eq_trace session.simulator config session.log
    rw [Call.request, Session.perform]
    rw [houtcome, hsimulator]
    cases hmodel : (session.simulator.trace config).outcome with
    | ok summary =>
      rw [hmodel] at hrun
      exact Action.exec_withoutResult hrun
    | error e =>
      rw [hmodel] at hrun
      exact Action.exec_withoutResult hrun
  | decodeOne address =>
    have hdecode := exec_decodeOne address session.simulator
    rw [Call.request, Session.perform]
    rw [Simulator.decodeAt] at hdecode
    cases hmodel : Machine8086.decode session.simulator.memory address addressSpace with
    | ok d =>
      rw [hmodel] at hdecode
      exact Action.exec_withoutResult (Action.exec_mapError _ hdecode)
    | error e =>
      rw [hmodel] at hdecode
      exact Action.exec_withoutResult (Action.exec_mapError _ hdecode)
  | disassemble =>
    have hlisting := exec_disassemble hextent
    rw [Call.request, Session.perform]
    cases hmodel : session.simulator.listing.disassembly with
    | ok text =>
      rw [hmodel] at hlisting
      exact Action.exec_withoutResult (Action.exec_mapError _ hlisting)
    | error e =>
      rw [hmodel] at hlisting
      exact Action.exec_withoutResult (Action.exec_mapError _ hlisting)
  | saveState => rfl
  | loadState snapshot =>
    have hsnapshot := exec_loadState snapshot session.simulator
    rw [Call.request, Session.perform, Session.perform.restore]
    cases hmodel : session.simulator.loadState snapshot with
    | ok t =>
      rw [hmodel] at hsnapshot
      exact Action.exec_mapError _ hsnapshot
    | error e =>
      rw [hmodel] at hsnapshot
      exact Action.exec_mapError _ hsnapshot
  | resetCpu => rfl
  | setRegister r value => exact exec_setRegister ..
  | setIp value => rfl
  | setFlags flags => rfl
  | writeByte address value => rfl
  | writeWord address value => rfl

end Checked

end Machine8086
