/-!
# Numerals

Text of natural numbers in decimal and hexadecimal, and the reading of unsigned numerals.

A number is written with the fewest digits; `hex` and `upperHex` fill up with leading zeros to a
least width. A numeral is read by `ofDigits?`: one or more digits of the base, of either case and
with any number of leading zeros.
-/

namespace Machine8086.Numeral

/-- The decimal digits of `n`. -/
def decimal (n : Nat) : String := String.ofList (Nat.toDigits 10 n)

/-- `digits` filled up with leading zeros to at least `width` characters. -/
def padded (width : Nat) (digits : List Char) : List Char :=
  List.replicate (width - digits.length) '0' ++ digits

/-- The lower-case hexadecimal digits of `n`, at least `width` of them. -/
def hex (width n : Nat) : String := String.ofList (padded width (Nat.toDigits 16 n))

/-- The upper-case hexadecimal digits of `n`, at least `width` of them. -/
def upperHex (width n : Nat) : String :=
  String.ofList (padded width ((Nat.toDigits 16 n).map Char.toUpper))

/-- The value of a decimal or hexadecimal digit of either case. -/
def digitValue? (c : Char) : Option Nat :=
  if '0' ≤ c ∧ c ≤ '9' then some (c.toNat - '0'.toNat)
  else if 'a' ≤ c ∧ c ≤ 'f' then some (c.toNat - 'a'.toNat + 10)
  else if 'A' ≤ c ∧ c ≤ 'F' then some (c.toNat - 'A'.toNat + 10)
  else none

/-- The value of a digit below `base`. -/
def digitBelow? (base : Nat) (c : Char) : Option Nat :=
  (digitValue? c).filter (· < base)

/-- Appends the digits `cs` to a numeral of value `value`; `none` at the first character that is
not a digit of the base. -/
def appendDigits? (base : Nat) : Nat → List Char → Option Nat
  | value, [] => some value
  | value, c :: cs =>
    match digitBelow? base c with
    | some d => appendDigits? base (value * base + d) cs
    | none => none

/-- The value of a text of one or more digits. -/
def ofDigits? (base : Nat) : List Char → Option Nat
  | [] => none
  | c :: cs => appendDigits? base 0 (c :: cs)

end Machine8086.Numeral
