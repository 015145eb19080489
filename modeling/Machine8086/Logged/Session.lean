import Machine8086.Logged.Simulator

/-!
# Requests with their log calls

A session answers requests with the operations that call the log themselves. Requests that tell
nothing, and those that change the log, are answered as a session answers them.
-/

namespace Machine8086.Logged

/-- A writer that takes so many bytes in all, or without a limit. Of a piece that does not fit it
takes the beginning. -/
def limited (capacity : Option Nat) : Checked.Writer String Unit := fun piece taken =>
  let text := taken ++ piece
  match capacity with
  | none => (.ok (), text)
  | some capacity =>
    if text.length ≤ capacity then (.ok (), text)
    else (.error (), String.ofList (text.toList.take capacity))

/-- Why a listing was not written to its end. -/
def writeError : Checked.ListingFailure Unit → WriteError
  | .writer () => .full
  | .listing error => .listing error

/-- The listing of the program as a text. -/
def disassemble : LoggedAction ListingError String := do
  match ← disassembleTo Checked.keepText "" with
  | (.ok _, kept) => return kept
  | (.error (.listing error), _) => throw error
  | (.error (.writer error), _) => error.elim

/-- The reply for the result of an operation. -/
def answered {ε α : Type} (reply : α → Reply) (failure : ε → Failure) : Except ε α → Reply
  | .ok a => reply a
  | .error e => .failed (failure e)

/-- An operation as the answer to a request. -/
def answer {ε α : Type} (action : LoggedAction ε α) (reply : α → Reply) (failure : ε → Failure) :
    LoggedAction Empty Reply := do
  return answered reply failure (← action.attempt)

/-- Answers a request. -/
def perform : Request → LoggedAction Empty Reply
  | .load program start => answer (load program start) .loaded .load
  | .loadMemory bytes start => answer (loadMemory bytes start) .loaded .load
  | .decode address stop => answer (decode address stop) .decoded .decode
  | .estimate i => answer (estimate i) .estimated id
  | .disassemble => answer disassemble .listing fun e => .write (.listing e)
  | .disassembleTo capacity => do
    let (result, taken) ← disassembleTo (limited capacity) ""
    return .written ⟨taken, result.mapError writeError⟩
  | .step count => do
    let (steps, failure) ← stepMany count
    return .stepped steps (failure.map .ofStep)
  | .run config => do
    let (_, outcome) ← run config
    return answered .ran id outcome
  | .trace config => do
    let (steps, outcome) ← run config
    return .traced steps outcome
  | .execute i => answer (execute i) (fun _ => .done) .execute
  | .message entry => do
    let s ← get
    log entry.category entry.level fun _ => entry.text
    return .logged (s.log.settings.allows entry.category entry.level)
  | request => do
    let s ← get
    let (reply, session) := s.toSession.perform request
    set { s with toSession := session }
    return reply

/-- Answers requests in order. -/
def performAll : List Request → LoggedAction Empty (List Reply)
  | [] => return []
  | request :: requests => do
    let reply ← perform request
    let replies ← performAll requests
    return reply :: replies

end Machine8086.Logged
