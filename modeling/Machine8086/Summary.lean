import Machine8086.Run

/-!
# Run summaries

The final state of a run as text and as indented JSON.
-/

namespace Machine8086.RunSummary

/-- The line of a register; the instruction pointer always has one, other registers unless they
are zero. -/
def registerLine (name : String) (value : UInt16) : String :=
  if value = 0 ∧ name ≠ "ip" then ""
  else "      " ++ name ++ ": 0x" ++ Numeral.hex 4 value.toNat ++ " (" ++
    Numeral.decimal value.toNat ++ ")\n"

/-- The line of the flags, if any is set. -/
def flagsLine (flags : Flags) : String :=
  if flags.letters = "" then "" else "   flags: " ++ flags.letters ++ "\n"

/-- The line of the clock total, if clocks were estimated. -/
def clocksLine : Option Nat → String
  | none => ""
  | some total => "  clocks: " ++ Numeral.decimal total ++ "\n"

/-- The summary as text. -/
def text (s : RunSummary) : String :=
  "Final registers:\n" ++
    String.join (s.registers.words.map fun (name, value) => registerLine name value) ++
    flagsLine s.registers.flags ++ clocksLine s.totalClocks

/-- A JSON object with one member to a line; members are indented by two more than the object. -/
def objectText (indent : Nat) (members : List (String × String)) : String :=
  let margin := "".pushn ' ' indent
  let line := fun (name, value) => margin ++ "  \"" ++ name ++ "\": " ++ value
  "\x7b\n" ++ ",\n".intercalate (members.map line) ++ "\n" ++ margin ++ "\x7d"

/-- A truth value in JSON. -/
def booleanText (value : Bool) : String := if value then "true" else "false"

/-- The summary as indented JSON. -/
def json (s : RunSummary) : String :=
  let flags := objectText 4 [("zero", booleanText s.registers.flags.zero),
    ("sign", booleanText s.registers.flags.sign)]
  let words := s.registers.words.map fun (name, value) => (name, Numeral.decimal value.toNat)
  objectText 0 [("registers", objectText 2 (words ++ [("flags", flags)])),
    ("steps", Numeral.decimal s.steps),
    ("total_clocks", (s.totalClocks.map Numeral.decimal).getD "null")]

end Machine8086.RunSummary
