import Mathlib
import Machine8086.Numeral

/-!
# Numerals are read back

Reading the digits that a number is written with returns the number (`ofDigits?_toDigits`). The
digits come off at the end, and appending a digit to a numeral is what the reader does at each.
-/

namespace Machine8086.Numeral

/-- Reading goes on behind a numeral from its value. -/
theorem appendDigits?_append (base value : Nat) (xs ys : List Char) :
    appendDigits? base value (xs ++ ys) =
      (appendDigits? base value xs).bind fun read => appendDigits? base read ys := by
  induction xs generalizing value with
  | nil => rfl
  | cons c xs ih =>
    rw [List.cons_append, appendDigits?, appendDigits?]
    cases digitBelow? base c with
    | none => rfl
    | some d => exact ih _

theorem digitBelow?_digitChar {base d : Nat} (hbase : base ≤ 16) (h : d < base) :
    digitBelow? base d.digitChar = some d := by
  have key : ∀ base ≤ 16, ∀ d < base, digitBelow? base (Nat.digitChar d) = some d := by decide
  exact key base hbase d h

theorem appendDigits?_toDigits {base : Nat} (hone : 1 < base) (hbase : base ≤ 16) (n : Nat) :
    appendDigits? base 0 (Nat.toDigits base n) = some n := by
  induction n using Nat.strongRecOn with
  | ind n ih =>
    rw [Nat.toDigits_eq_if hone]
    split
    case isTrue h => simp [appendDigits?, digitBelow?_digitChar hbase h]
    case isFalse h =>
      have hless : n / base < n := Nat.div_lt_self (by omega) hone
      have hdigit := digitBelow?_digitChar hbase (Nat.mod_lt n (Nat.zero_lt_of_lt hone))
      rw [appendDigits?_append, ih _ hless, Option.bind_some, appendDigits?, hdigit]
      simp [appendDigits?, Nat.div_add_mod']

/-- The digits of a number are a numeral of its value. -/
theorem ofDigits?_toDigits {base : Nat} (hone : 1 < base) (hbase : base ≤ 16) (n : Nat) :
    ofDigits? base (Nat.toDigits base n) = some n := by
  have hread := appendDigits?_toDigits hone hbase n
  cases hdigits : Nat.toDigits base n with
  | nil => exact absurd hdigits Nat.toDigits_ne_nil
  | cons c cs =>
    rw [hdigits] at hread
    exact hread

end Machine8086.Numeral
