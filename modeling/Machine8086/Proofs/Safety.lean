import Machine8086.Proofs.Checked.Call
import Machine8086.Proofs.Concatenation

/-!
# Safety of the simulator

Calls in any order and with any arguments keep the simulator sound. The extent of the program stays
in memory, since only a load that succeeds changes it (`Session.extent_perform`,
`Session.extentInMemory_perform`).
Everything that is decoded begins before the end that it is decoded with, so that nothing fails for
want of a first byte (`not_endsStream_perform`); single steps may begin anywhere, as their end is
that of the address space. From both it follows for calls in a row, and with the agreement of calls
and requests that none of them ends in a fault (`calls_are_safe`).
-/

namespace Machine8086

open Checked

/-! ## The end of the stream -/

/-- The failure says that there was nothing to decode. -/
def Failure.EndsStream : Failure → Prop
  | decode e => e = .endOfStream
  | write (.listing e) => e.source = .endOfStream
  | _ => False

theorem decode_ne_endOfStream {m : Memory} {address : UInt16} {stop : Nat}
    (h : address.toNat < min stop addressSpace) :
    decode m address stop ≠ .error .endOfStream := by
  intro hend
  have hle := (decode_outcome m address stop).endOfStream_iff.1 hend
  omega

theorem toNat_lt_min_addressSpace (address : UInt16) :
    address.toNat < min addressSpace addressSpace := by
  rw [Nat.min_self]
  exact toNat_lt_addressSpace address

/-- Every listed position lies before the end. -/
theorem Memory.listing_ne_endOfStream (m : Memory) {stop : Nat} (hspace : stop ≤ addressSpace)
    (position index : Nat) :
    ∀ e, (m.listing stop position index).failure = some e → e.source ≠ .endOfStream := by
  refine m.listing_induction
    (motive := fun _ _ l => ∀ e, l.failure = some e → e.source ≠ .endOfStream) index ?_ ?_ ?_
  · intro position index hposition e h
    cases h
  · rintro position index source hposition hdecode e h hend
    cases h
    obtain rfl : source = .endOfStream := hend
    refine decode_ne_endOfStream ?_ hdecode
    rw [UInt16.toNat_ofNat_of_lt' (Nat.lt_of_lt_of_le hposition hspace)]
    exact Nat.lt_min.2 ⟨hposition, Nat.lt_of_lt_of_le hposition hspace⟩
  · intro position index d rest hposition hdecode ih e h
    exact ih e h

theorem Simulator.preview_not_endsStream {s : Simulator} {stop : Nat} {e : StepError}
    (hip : s.cpu.ip.toNat < min stop addressSpace) (h : s.preview stop = .error e) :
    ¬ (Failure.ofStep e).EndsStream := by
  rw [preview] at h
  split at h
  case h_1 error hdecode =>
    cases h
    rintro rfl
    exact decode_ne_endOfStream hip hdecode
  case h_2 d hdecode =>
    dsimp only at h
    split at h <;> cases h
    exact id

/-- A run decodes in the program only. -/
theorem Simulator.trace_not_endsStream {s : Simulator} (hextent : s.ExtentInMemory)
    {config : RunConfig} {failure : Failure} (h : (s.trace config).outcome = .error failure) :
    ¬ failure.EndsStream := by
  obtain ⟨reached, hpath, -, hstops⟩ := s.trace_path config
  have hend := hpath.programEnd_eq ▸ hextent.end_le
  generalize (s.trace config).simulator = final at hstops
  generalize config.budget - (s.trace config).report.length = left at hstops
  generalize hending : (s.trace config).ending = ending at hstops
  rw [RunResult.outcome, hending] at h
  cases hstops with
  | left hin => cases h
  | spent hin hspent => cases h
  | @failed _ _ e hin hgoes hpreview =>
    cases h
    -- the end of the extent is no later than that of memory, so the bound is the extent
    have hbefore := ((inProgram_iff reached).1 hin).2
    exact preview_not_endsStream (Nat.lt_min.2 ⟨hbefore, Nat.lt_of_lt_of_le hbefore hend⟩) hpreview
  | unestimated hin hgoes hpreview hreported =>
    cases h
    exact id
  | uncounted hgoes turn =>
    cases h
    exact id

/-! ## The extent of the program -/

/-- Start and end of the program. -/
def Simulator.extent (s : Simulator) : UInt16 × Nat := (s.programStart, s.programEnd)

theorem Simulator.Stops.extent_eq {config : RunConfig} {budget : Nat} {s final : Simulator}
    {ending : Ending} (h : s.Stops config budget final ending) : final.extent = s.extent := by
  cases h with
  | left hin => rfl
  | spent hin hspent => rfl
  | failed hin hgoes hpreview => rfl
  | unestimated hin hgoes hpreview hreported => rfl
  | uncounted hgoes turn => rfl

theorem Simulator.extent_trace (s : Simulator) (config : RunConfig) :
    (s.trace config).simulator.extent = s.extent := by
  obtain ⟨reached, hpath, -, hstops⟩ := s.trace_path config
  rw [hstops.extent_eq, extent, hpath.programStart_eq, hpath.programEnd_eq, extent]

theorem Simulator.extent_stepMany (s : Simulator) (count : Nat) :
    (s.stepMany count).2.2.extent = s.extent := by
  induction count generalizing s with
  | zero => rfl
  | succ count ih =>
    rw [stepMany]
    cases s.preview addressSpace with
    | error e => rfl
    | ok step => exact ih (s.commit step)

/-- The extent after a request: that of the program if one was loaded, else what it was. -/
def Request.extentAfter (extent : UInt16 × Nat) : Request → Except Failure Unit → UInt16 × Nat
  | .load program start, .ok () => (start, start.toNat + program.length)
  | _, _ => extent

/-- Only a load that succeeds changes the extent. -/
theorem Session.extent_perform (session : Session) (request : Request) :
    (session.perform request).2.simulator.extent =
      request.extentAfter session.simulator.extent (session.perform request).1.result := by
  cases request with
  | load program start =>
    rw [perform]
    cases hload : (session.report (loadEvents program start)).simulator.load program start with
    | ok t =>
      obtain ⟨-, rfl⟩ := (Simulator.load_eq_ok_iff ..).1 hload
      rfl
    | error e => rfl
  | loadMemory bytes start =>
    rw [perform]
    cases (session.report (loadEvents bytes start)).simulator.memory.load bytes start with
    | ok m => rfl
    | error e => rfl
  | decode address stop =>
    rw [perform]
    cases decode session.simulator.memory address stop with
    | ok d => rfl
    | error e => rfl
  | estimate instruction =>
    rw [perform]
    cases instruction.estimate with
    | ok clocks => rfl
    | error e => rfl
  | disassemble =>
    rw [perform]
    cases session.simulator.listing.disassembly with
    | ok text => rfl
    | error e => rfl
  | step count =>
    have hsteps := session.simulator.extent_stepMany count
    rw [perform]
    generalize session.simulator.stepMany count = taken at hsteps
    obtain ⟨steps, failure, simulator⟩ := taken
    cases failure with
    | none => exact hsteps
    | some e => exact hsteps
  | run config =>
    have hrun := session.simulator.extent_trace config
    rw [← (runLogged_eq_trace session.simulator config session.log).1] at hrun
    rw [perform]
    cases (session.simulator.runLogged config session.log).outcome with
    | ok summary => exact hrun
    | error e => exact hrun
  | trace config =>
    have hrun := session.simulator.extent_trace config
    rw [perform, Simulator.traceLogged, Simulator.runWith_eq_trace]
    exact hrun
  | execute instruction =>
    rw [perform]
    cases effect session.simulator.memory session.simulator.cpu instruction with
    | ok e => rfl
    | error e => rfl
  | restoreState =>
    rw [perform, perform.restore, Simulator.loadState]
    cases Snapshot.read session.saved with
    | ok cpu => rfl
    | error e => rfl
  | loadState snapshot =>
    rw [perform, perform.restore, Simulator.loadState]
    cases Snapshot.read snapshot with
    | ok cpu => rfl
    | error e => rfl
  | _ => rfl

theorem Simulator.ExtentInMemory.of_extent_eq {s t : Simulator} (hextent : s.ExtentInMemory)
    (h : t.extent = s.extent) : t.ExtentInMemory := by
  obtain ⟨hstart, hend⟩ := Prod.mk.inj h
  exact ⟨hstart ▸ hend ▸ hextent.start_le, hend ▸ hextent.end_le⟩

/-- Whatever is asked for, the extent stays in memory. -/
theorem Session.extentInMemory_perform {session : Session}
    (hextent : session.simulator.ExtentInMemory) (request : Request) :
    (session.perform request).2.simulator.ExtentInMemory := by
  cases request with
  | load program start =>
    rw [perform]
    cases hload : (session.report (loadEvents program start)).simulator.load program start with
    | ok t => exact Simulator.extentInMemory_of_load hload
    | error e => exact hextent
  | _ => exact hextent.of_extent_eq (session.extent_perform _)

theorem Session.extentInMemory_performAll {session : Session}
    (hextent : session.simulator.ExtentInMemory) (requests : List Request) :
    (session.performAll requests).2.simulator.ExtentInMemory := by
  induction requests generalizing session with
  | nil => exact hextent
  | cons request requests ih => exact ih (extentInMemory_perform hextent request)

/-- A new simulator has no program. -/
theorem extentInMemory_new : ({} : Simulator).ExtentInMemory := ⟨Nat.le_refl 0, Nat.zero_le _⟩

/-! ## Single calls -/

namespace Checked

variable {session : Session} {call : Call}

/-- No call ends for want of bytes to decode. -/
theorem not_endsStream_perform (hextent : session.simulator.ExtentInMemory) {failure : Failure}
    (h : (session.perform call.request).1.result = .error failure) : ¬ failure.EndsStream := by
  cases call with
  | load program start =>
    rw [Call.request, Session.perform] at h
    split at h <;> cases h
    exact id
  | step =>
    rw [Call.request, Session.perform, Simulator.stepMany] at h
    cases hpreview : session.simulator.preview addressSpace with
    | ok step =>
      rw [hpreview] at h
      cases h
    | error e =>
      rw [hpreview] at h
      cases h
      exact Simulator.preview_not_endsStream (toNat_lt_min_addressSpace _) hpreview
  | run config =>
    rw [Call.request, Session.perform] at h
    rw [(runLogged_eq_trace session.simulator config session.log).2] at h
    split at h <;> cases h
    exact Simulator.trace_not_endsStream hextent ‹_›
  | decodeOne address =>
    rw [Call.request, Session.perform] at h
    split at h <;> cases h
    rintro rfl
    exact decode_ne_endOfStream (toNat_lt_min_addressSpace address) ‹_›
  | disassemble =>
    rw [Call.request, Session.perform] at h
    cases hlisting : session.simulator.listing.disassembly with
    | ok text =>
      rw [hlisting] at h
      cases h
    | error e =>
      rw [hlisting] at h
      cases h
      apply Memory.listing_ne_endOfStream _ hextent.end_le
      exact (Listing.disassembly_eq_error_iff ..).1 hlisting
  | loadState snapshot =>
    rw [Call.request, Session.perform, Session.perform.restore] at h
    split at h <;> cases h
    exact id
  | _ => cases h

/-! ## Calls in a row -/

/-- The results of calls, and the session after them. -/
def Call.answerAll (session : Session) (calls : List Call) :
    List (Except Failure Unit) × Session :=
  let (replies, session) := session.performAll (calls.map Call.request)
  (replies.map Reply.result, session)

/-- The extent after calls with their results. -/
def Call.extentAfterAll (extent : UInt16 × Nat) (events : List (Call × Except Failure Unit)) :
    UInt16 × Nat :=
  events.foldl (fun extent event => event.1.request.extentAfter extent event.2) extent

/-- Every run among the calls takes fewer than `2 ^ 59` steps. -/
def ShortRuns : Session → List Call → Prop
  | _, [] => True
  | session, call :: calls =>
    (∀ config, call = .run config → (session.simulator.trace config).steps < 2 ^ 59) ∧
      ShortRuns (session.perform call.request).2 calls

theorem answerAll_cons (session : Session) (call : Call) (calls : List Call) :
    Call.answerAll session (call :: calls) =
      let (reply, next) := session.perform call.request
      let (results, last) := Call.answerAll next calls
      (reply.result :: results, last) := rfl

theorem extent_answerAll (session : Session) (calls : List Call) :
    (Call.answerAll session calls).2.simulator.extent =
      Call.extentAfterAll session.simulator.extent
        (calls.zip (Call.answerAll session calls).1) := by
  induction calls generalizing session with
  | nil => rfl
  | cons call calls ih =>
    rw [answerAll_cons, List.zip_cons_cons, Call.extentAfterAll, List.foldl_cons,
      ← session.extent_perform call.request]
    exact ih _

theorem not_endsStream_answerAll (hextent : session.simulator.ExtentInMemory) {calls : List Call}
    {failure : Failure} (h : .error failure ∈ (Call.answerAll session calls).1) :
    ¬ failure.EndsStream := by
  induction calls generalizing session with
  | nil => cases h
  | cons call calls ih =>
    rw [answerAll_cons, List.mem_cons] at h
    rcases h with hfirst | hrest
    · exact not_endsStream_perform hextent hfirst.symm
    · exact ih (Session.extentInMemory_perform hextent call.request) hrest

theorem performAll_eq_answerAll (hextent : session.simulator.ExtentInMemory) {calls : List Call}
    (hshort : ShortRuns session calls) :
    Call.performAll calls session.simulator =
      .ok ((Call.answerAll session calls).1, (Call.answerAll session calls).2.simulator) := by
  -- the extent in memory is what the calls carry along; without it a listing may not end
  induction calls generalizing session with
  | nil => rfl
  | cons call calls ih =>
    obtain ⟨hfirst, hrest⟩ := hshort
    rw [Call.performAll, exec_perform hextent hfirst]
    dsimp only [bind, Except.bind]
    rw [ih (Session.extentInMemory_perform hextent call.request) hrest]
    rfl

/-- Whatever is called on a new simulator, in whatever order, the extent of the program lies in
memory and is that of the last load that succeeded; no call fails for want of bytes to decode; and
if no run among the calls takes `2 ^ 59` steps or more, none of them ends in a fault. -/
theorem calls_are_safe (calls : List Call) :
    let results := (Call.answerAll {} calls).1
    let s := (Call.answerAll {} calls).2.simulator
    (s.programStart.toNat ≤ s.programEnd ∧ s.programEnd ≤ 65536) ∧
      (s.programStart, s.programEnd) = Call.extentAfterAll (0, 0) (calls.zip results) ∧
      (∀ failure, .error failure ∈ results → ¬ failure.EndsStream) ∧
      (ShortRuns {} calls → Call.performAll calls {} = .ok (results, s)) := by
  have hextent :=
    @Session.extentInMemory_performAll {} extentInMemory_new (calls.map Call.request)
  refine ⟨⟨hextent.start_le, hextent.end_le⟩, extent_answerAll {} calls, fun failure h => ?_, ?_⟩
  · exact not_endsStream_answerAll extentInMemory_new h
  · exact @performAll_eq_answerAll {} extentInMemory_new calls

/-- `mov ax, 5` stands before a byte that starts no instruction. The run that goes on behind the
move fails there, the step that follows decodes a byte that was written into the program, and the
second load does not fit; the extent is still that of the first. -/
theorem calls_are_safe_program :
    let calls : List Call :=
      [.load [0xB8, 0x05, 0x00, 0x90] 0, .run { stepLimit := some 1 }, .run {},
        .writeWord 2 0x1234, .setIp 2, .step, .load [0x90, 0x90] 0xFFFF]
    let results := (Call.answerAll {} calls).1
    let s := (Call.answerAll {} calls).2.simulator
    ShortRuns {} calls ∧ Call.performAll calls {} = .ok (results, s) ∧
      (s.programStart, s.programEnd) = (0, 4) ∧
      results = [.ok (), .ok (), .error (.decode (.unknownOpcode 0x90 3)), .ok (), .ok (),
        .error (.decode (.unknownOpcode 0x34 2)), .error (.load ⟨0xFFFF, 2⟩)] := by
  intro calls
  have hshort : ShortRuns {} calls := by
    refine ⟨nofun, ?_, ?_, nofun, nofun, nofun, nofun, trivial⟩
    · rintro config ⟨⟩
      exact (by decide : 1 < 2 ^ 59)
    · rintro config ⟨⟩
      exact (by decide : 0 < 2 ^ 59)
  obtain ⟨-, hextent, -, hperform⟩ := calls_are_safe calls
  refine ⟨hshort, hperform hshort, ?_, ?_⟩
  · exact hextent
  · rfl

end Checked

end Machine8086
