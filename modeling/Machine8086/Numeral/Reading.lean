import Machine8086.Numeral

/-!
# Reading numerals below a bound

A numeral below a bound is read digit by digit, and its value has to stay below the bound at each of
them. So reading ends at the first character that is no digit or takes the value too far, and says
which of the two it was.
-/

namespace Machine8086

namespace Numeral

/-- Why a text is not read as a numeral below a bound. -/
inductive ReadError where
  | empty
  | invalidDigit
  | tooLarge
  deriving DecidableEq, Repr

/-- The wording of a reading error. -/
def ReadError.message : ReadError → String
  | empty => "cannot parse integer from empty string"
  | invalidDigit => "invalid digit found in string"
  | tooLarge => "number too large to fit in target type"

/-- Appends digits to a numeral of value `value` that is below the bound, as long as it stays so. -/
def appendBelow (bound base : Nat) : Nat → List Char → Except ReadError Nat
  | value, [] => .ok value
  | value, c :: cs =>
    match digitBelow? base c with
    | none => .error .invalidDigit
    | some d =>
      if value * base + d < bound then appendBelow bound base (value * base + d) cs
      else .error .tooLarge

/-- Reads an unsigned numeral below a bound; a plus sign may stand before it, but not alone. -/
def readBelow (bound base : Nat) : List Char → Except ReadError Nat
  | [] => .error .empty
  | ['+'] => .error .invalidDigit
  | '+' :: cs => appendBelow bound base 0 cs
  | cs => appendBelow bound base 0 cs

end Numeral

end Machine8086
