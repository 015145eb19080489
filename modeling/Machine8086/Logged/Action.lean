import Machine8086.Checked.Action
import Machine8086.Session

/-!
# Actions that log

The log is called while an operation goes on, at the place where there is something to tell, and is
given the text only on demand. An action here works on a session in which each call of the log is
kept, with the text if the log has asked for it. So what an operation does, what it tells and what
of this is asked for can be told apart.
-/

namespace Machine8086.Logged

/-- A call of the log. The text is there if it was asked for. -/
structure LogCall where
  category : Category
  level : Level
  text : Option String
  deriving DecidableEq, Repr

/-- A session with the calls of the log so far. -/
structure Watched extends Session where
  calls : List LogCall := []

/-- An action on a session that may call the log. -/
abbrev LoggedAction (ε : Type) := Checked.Action Watched ε

variable {ε : Type}

/-- Calls the log. Only if the settings allow it is the message asked for its text, and the line
written. -/
def log (category : Category) (level : Level) (message : Unit → String) : LoggedAction ε Unit := do
  let s ← get
  if s.log.settings.allows category level then
    let entry : LogEntry := ⟨category, level, message ()⟩
    modify fun s => { s with
      log := s.log.putLine entry.line
      calls := s.calls ++ [⟨category, level, some entry.text⟩] }
  else modify fun s => { s with calls := s.calls ++ [⟨category, level, none⟩] }

/-- The simulator. -/
def getSimulator : LoggedAction ε Simulator := do
  let s ← get
  return s.simulator

/-- Replaces the simulator. -/
def setSimulator (simulator : Simulator) : LoggedAction ε Unit :=
  modify fun s => { s with simulator }

end Machine8086.Logged
