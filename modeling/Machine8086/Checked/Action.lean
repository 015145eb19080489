import Machine8086.Register

/-!
# Actions

How an operation is carried out on a state that it changes step by step. An action may end in an
error; the state is then what the action has made of it so far, and nothing is undone unless the
action does it. What stops a program for good is no error but a fault: a number that its type cannot
hold, an index past the end of a table, a case that was taken to be excluded, a loop that does not
come to its end. Whatever can go wrong in this way is asked for by one of the functions below.
-/

namespace Machine8086.Checked

/-- What stops a program for good. -/
inductive Fault where
  /-- A number is out of the range of its type. -/
  | overflow
  /-- A table has no entry at an index. -/
  | noEntry
  /-- A case turned up that was taken to be excluded. -/
  | excluded
  /-- A loop was not done after as many rounds as it can need. -/
  | endless
  deriving DecidableEq, Repr

/-- A natural number as one of so many bits. -/
def fit (bits value : Nat) : Except Fault Nat :=
  if value < Nat.pow 2 bits then .ok value else .error .overflow

/-- A sum of unsigned numbers of so many bits. -/
def sum (bits first second : Nat) : Except Fault Nat := fit bits (first + second)

/-- A difference of unsigned numbers. -/
def difference (first second : Nat) : Except Fault Nat :=
  if second ≤ first then .ok (first - second) else .error .overflow

/-- A sum of signed numbers of so many bits. -/
def signedSum (bits : Nat) (first second : Int) : Except Fault Int :=
  let bound := Int.ofNat (Nat.pow 2 (bits - 1))
  if -bound ≤ first + second ∧ first + second < bound then .ok (first + second)
  else .error .overflow

/-- An entry of a table. -/
def entry {α : Type} (table : List α) (index : Nat) : Except Fault α :=
  match table[index]? with
  | some a => .ok a
  | none => .error .noEntry

/-- What is there; that it is there was taken for granted. -/
def present {α : Type} : Option α → Except Fault α
  | some a => .ok a
  | none => .error .excluded

/-- A condition that was taken for granted. -/
def assert (condition : Bool) : Except Fault Unit :=
  if condition then .ok () else .error .excluded

/-- An action on a state, with a result or an error. -/
abbrev Action (σ ε : Type) := ExceptT ε (StateT σ (Except Fault))

namespace Action

variable {σ ε ε' α β : Type}

/-- Carries out an action on a state. -/
def exec (action : Action σ ε α) (s : σ) : Except Fault (Except ε α × σ) := action.run.run s

/-- The result of an action, or its error, for an action that goes on after both. -/
def attempt (action : Action σ ε α) : Action σ ε' (Except ε α) := ExceptT.lift action.run

/-- The action with another form of its errors. -/
def mapError (f : ε → ε') (action : Action σ ε α) : Action σ ε' α := ExceptT.adapt f action

/-- The action without its result. -/
def withoutResult (action : Action σ ε α) : Action σ ε Unit := do
  let _ ← action
  return ()

/-- Stops for good. -/
def fault (why : Fault) : Action σ ε α := liftM (Except.error why : Except Fault α)

/-- Ends in the error if there is one. -/
def ofExcept : Except ε α → Action σ ε α
  | .ok a => pure a
  | .error e => throw e

end Action

end Machine8086.Checked
