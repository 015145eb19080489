import Machine8086.Numeral.Reading
import Machine8086.Proofs.Numeral

/-!
# The grammar of numerals

A numeral is one or more digits, with the value that they have by their places (`HasDigits`), behind
a plus sign or without one (`IsNumeral`). The reader goes through the digits with the value so far,
so what the digits behind a place add is counted from the value there (`appendDigits?_eq_some_iff`).
Checking the bound at each digit is the same as at the end, since the value never falls
(`appendBelow_eq_ok_iff`), and the value is found too large exactly if the text begins with a
numeral that is (`readBelow_eq_tooLarge_iff`).
-/

namespace Machine8086

namespace Numeral

/-! ## The grammar -/

/-- The character is a digit of the base with this value, a letter in either case. -/
def IsDigit (base : Nat) (c : Char) (d : Nat) : Prop :=
  d < base ∧ (c = Nat.digitChar d ∨ c = (Nat.digitChar d).toUpper)

/-- One or more digits of the base, with the value that they have by their places. -/
def HasDigits (base : Nat) (cs : List Char) (value : Nat) : Prop :=
  cs ≠ [] ∧ ∃ ds, List.Forall₂ (IsDigit base) cs ds ∧ value = Nat.ofDigits base ds.reverse

/-- Digits of the base, after a plus sign or without one. -/
inductive IsNumeral (base : Nat) : List Char → Nat → Prop
  | digits {cs : List Char} {value : Nat} (h : HasDigits base cs value) : IsNumeral base cs value
  | plus {cs : List Char} {value : Nat} (h : HasDigits base cs value) :
      IsNumeral base ('+' :: cs) value

/-! ## Digits -/

section

variable {base : Nat}

/-- Only ASCII characters are digits. -/
theorem toNat_lt_of_digitValue? {c : Char} {d : Nat} (h : digitValue? c = some d) :
    c.toNat < 128 := by
  have hlast : ∀ last : Char, last.toNat < 128 → c ≤ last → c.toNat < 128 :=
    fun last hlast hle => Nat.lt_of_le_of_lt hle hlast
  rw [digitValue?] at h
  split at h
  case isTrue hdecimal => exact hlast '9' (by decide) hdecimal.2
  case isFalse =>
    split at h
    case isTrue hlower => exact hlast 'f' (by decide) hlower.2
    case isFalse =>
      split at h
      case isTrue hupper => exact hlast 'F' (by decide) hupper.2
      case isFalse => cases h

theorem digitBelow?_eq_some_iff (hbase : base ≤ 16) (c : Char) (d : Nat) :
    digitBelow? base c = some d ↔ IsDigit base c d := by
  rw [digitBelow?, Option.filter_eq_some_iff, decide_eq_true_eq, IsDigit, and_comm]
  refine and_congr_right fun hd => ?_
  constructor
  · intro h
    have key : ∀ n < 128, ∀ d ∈ digitValue? (Char.ofNat n),
        Char.ofNat n = Nat.digitChar d ∨ Char.ofNat n = (Nat.digitChar d).toUpper := by decide
    have hc := key c.toNat (toNat_lt_of_digitValue? h) d
    rw [Char.ofNat_toNat] at hc
    exact hc h
  · have key : ∀ d < 16, digitValue? (Nat.digitChar d) = some d ∧
        digitValue? (Nat.digitChar d).toUpper = some d := by decide
    have hdigit := key d (by omega)
    rintro (rfl | rfl)
    · exact hdigit.1
    · exact hdigit.2

/-- What the first digit adds to the value of those behind it. -/
theorem ofDigits_reverse_cons (base d : Nat) (ds : List Nat) :
    Nat.ofDigits base (d :: ds).reverse = d * base ^ ds.length + Nat.ofDigits base ds.reverse := by
  rw [List.reverse_cons, Nat.ofDigits_append, Nat.ofDigits_singleton, List.length_reverse,
    Nat.mul_comm d, Nat.add_comm]

/-- Appending digits multiplies the value and adds theirs. -/
theorem appendDigits?_eq_some_iff (hbase : base ≤ 16) (value read : Nat) (cs : List Char) :
    appendDigits? base value cs = some read ↔
      ∃ ds, List.Forall₂ (IsDigit base) cs ds ∧
        read = value * base ^ ds.length + Nat.ofDigits base ds.reverse := by
  induction cs generalizing value with
  | nil =>
    simp [appendDigits?, List.forall₂_nil_left_iff, eq_comm]
  | cons c cs ih =>
    rw [appendDigits?]
    constructor
    · intro h
      cases hc : digitBelow? base c with
      | none =>
        rw [hc] at h
        cases h
      | some d =>
        rw [hc] at h
        obtain ⟨ds, hds, hread⟩ := (ih _).1 h
        refine ⟨d :: ds, .cons ((digitBelow?_eq_some_iff hbase c d).1 hc) hds, ?_⟩
        rw [hread, ofDigits_reverse_cons, List.length_cons]
        ring
    · rintro ⟨_, hds, hread⟩
      cases hds with
      | @cons _ d _ ds hd hds =>
        rw [(digitBelow?_eq_some_iff hbase c d).2 hd]
        refine (ih _).2 ⟨ds, hds, ?_⟩
        rw [hread, ofDigits_reverse_cons, List.length_cons]
        ring

theorem ofDigits?_eq_some_iff (hbase : base ≤ 16) (cs : List Char) (value : Nat) :
    ofDigits? base cs = some value ↔ HasDigits base cs value := by
  cases cs with
  | nil => simp [ofDigits?, HasDigits]
  | cons c cs =>
    rw [ofDigits?, appendDigits?_eq_some_iff hbase, HasDigits]
    simp

/-! ## The sign -/

/-- The characters behind a plus sign, or all of them if there is none. -/
def unsignedPart : List Char → List Char
  | '+' :: cs => cs
  | cs => cs

theorem unsignedPart_of_ne {cs : List Char} (h : ∀ digits, cs ≠ '+' :: digits) :
    unsignedPart cs = cs := by
  unfold unsignedPart
  split
  case h_1 digits => exact absurd rfl (h digits)
  case h_2 => rfl

/-- The value of digits with an optional leading plus sign, without a bound. -/
def unsigned? (base : Nat) : List Char → Option Nat
  | '+' :: cs => ofDigits? base cs
  | cs => ofDigits? base cs

theorem unsigned?_eq (base : Nat) (cs : List Char) :
    unsigned? base cs = ofDigits? base (unsignedPart cs) := by
  unfold unsigned?
  split
  case h_1 digits => rfl
  case h_2 hplus => rw [unsignedPart_of_ne hplus]

theorem isNumeral_iff (hbase : base ≤ 16) (cs : List Char) (value : Nat) :
    IsNumeral base cs value ↔ HasDigits base (unsignedPart cs) value := by
  unfold unsignedPart
  split
  case h_1 cs =>
    constructor
    · rintro (⟨-, ds, hds, -⟩ | h)
      · -- a plus sign is no digit
        cases hds with
        | cons hd hds =>
          rw [← digitBelow?_eq_some_iff hbase] at hd
          cases hd
      · exact h
    · exact .plus
  case h_2 hplus =>
    constructor
    · rintro (h | h)
      · exact h
      · exact absurd rfl (hplus _)
    · exact .digits

theorem unsigned?_eq_some_iff (hbase : base ≤ 16) (cs : List Char) (value : Nat) :
    unsigned? base cs = some value ↔ IsNumeral base cs value := by
  rw [unsigned?_eq, isNumeral_iff hbase, ofDigits?_eq_some_iff hbase]

/-! ## Reading below a bound -/

theorem le_of_appendDigits? (hbase : 0 < base) {value read : Nat} {cs : List Char}
    (h : appendDigits? base value cs = some read) : value ≤ read := by
  induction cs generalizing value with
  | nil => exact Nat.le_of_eq (Option.some.inj h)
  | cons c cs ih =>
    rw [appendDigits?] at h
    split at h
    case h_1 d hd =>
      have hmul : value ≤ value * base := Nat.le_mul_of_pos_right value hbase
      have hrest := ih h
      omega
    case h_2 => cases h

variable {bound : Nat}

/-- A bound that is checked at each digit is one on the value, which never falls. -/
theorem appendBelow_eq_ok_iff (hbase : 0 < base) {value : Nat} (hvalue : value < bound)
    (cs : List Char) (read : Nat) :
    appendBelow bound base value cs = .ok read ↔
      appendDigits? base value cs = some read ∧ read < bound := by
  induction cs generalizing value with
  | nil =>
    rw [appendBelow, appendDigits?, Except.ok.injEq, Option.some.injEq]
    constructor
    · rintro rfl
      exact ⟨rfl, hvalue⟩
    · exact fun h => h.1
  | cons c cs ih =>
    rw [appendBelow, appendDigits?]
    cases hc : digitBelow? base c with
    | none => simp
    | some d =>
      dsimp only
      split
      case isTrue hless => exact ih hless
      case isFalse hmore =>
        constructor
        · intro h
          cases h
        · rintro ⟨hread, hless⟩
          exact absurd (Nat.lt_of_le_of_lt (le_of_appendDigits? hbase hread) hless) hmore

/-- What does not hold of nothing holds of a beginning of a text if it does so with the first
character in it. -/
theorem exists_prefix_cons_iff {P : List Char → Prop} (hP : ¬ P []) (c : Char) (cs : List Char) :
    (∃ start, start <+: c :: cs ∧ P start) ↔ ∃ start, start <+: cs ∧ P (c :: start) := by
  constructor
  · rintro ⟨start, hstart, h⟩
    obtain rfl | ⟨behind, rfl, hbehind⟩ := List.prefix_cons_iff.1 hstart
    · exact absurd h hP
    · exact ⟨behind, hbehind, h⟩
  · rintro ⟨start, hstart, h⟩
    exact ⟨c :: start, List.prefix_cons_iff.2 (.inr ⟨start, rfl, hstart⟩), h⟩

/-- The value is too large as soon as it is for the digits up to some place. -/
theorem appendBelow_eq_tooLarge_iff {value : Nat} (hvalue : value < bound) (cs : List Char) :
    appendBelow bound base value cs = .error .tooLarge ↔
      ∃ start, start <+: cs ∧
        ∃ read, appendDigits? base value start = some read ∧ bound ≤ read := by
  -- without a digit the value is still below the bound
  have hnil : ∀ value < bound,
      ¬ ∃ read, appendDigits? base value [] = some read ∧ bound ≤ read := by
    rintro value hvalue ⟨read, hread, hbound⟩
    cases hread
    omega
  induction cs generalizing value with
  | nil =>
    simp only [List.prefix_nil, exists_eq_left]
    exact iff_of_false nofun (hnil value hvalue)
  | cons c cs ih =>
    rw [exists_prefix_cons_iff (hnil value hvalue), appendBelow]
    simp only [appendDigits?]
    cases digitBelow? base c with
    | none => simp
    | some d =>
      dsimp only
      split
      case isTrue hless => exact ih hless
      case isFalse hmore =>
        exact iff_of_true rfl ⟨[], List.nil_prefix, _, rfl, Nat.le_of_not_lt hmore⟩

theorem appendBelow_ne_empty (value : Nat) (cs : List Char) :
    appendBelow bound base value cs ≠ .error .empty := by
  induction cs generalizing value with
  | nil => simp [appendBelow]
  | cons c cs ih =>
    rw [appendBelow]
    cases digitBelow? base c with
    | none => simp
    | some d =>
      dsimp only
      split
      case isTrue => exact ih _
      case isFalse => simp

/-- A text without digits is refused at once, all others are read digit by digit. -/
theorem readBelow_eq (bound base : Nat) (cs : List Char) :
    readBelow bound base cs =
      if unsignedPart cs = [] then .error (if cs = [] then .empty else .invalidDigit)
      else appendBelow bound base 0 (unsignedPart cs) := by
  unfold readBelow
  split
  case h_1 => rfl
  case h_2 => rfl
  case h_3 digits hdigits => exact (if_neg hdigits).symm
  case h_4 hnil hlone hplus => rw [unsignedPart_of_ne hplus, if_neg hnil]

theorem ofDigits?_of_ne_nil {cs : List Char} (h : cs ≠ []) :
    ofDigits? base cs = appendDigits? base 0 cs := by
  cases cs with
  | nil => exact absurd rfl h
  | cons c cs => rfl

theorem readBelow_eq_ok_iff (hpos : 0 < base) (hbound : 0 < bound) (cs : List Char) (value : Nat) :
    readBelow bound base cs = .ok value ↔ unsigned? base cs = some value ∧ value < bound := by
  rw [readBelow_eq, unsigned?_eq]
  by_cases hnil : unsignedPart cs = []
  · simp [hnil, ofDigits?]
  · rw [if_neg hnil, ofDigits?_of_ne_nil hnil, appendBelow_eq_ok_iff hpos hbound]

theorem readBelow_eq_empty_iff (cs : List Char) :
    readBelow bound base cs = .error .empty ↔ cs = [] := by
  constructor
  · intro h
    rw [readBelow_eq] at h
    split at h
    · split at h
      case isTrue hnil => exact hnil
      case isFalse => cases h
    · exact (appendBelow_ne_empty _ _ h).elim
  · rintro rfl
    rfl

/-- The beginnings of a text, each without its sign, are those of what is behind the sign. -/
theorem exists_prefix_unsignedPart_iff {P : List Char → Prop} (hP : ¬ P []) (cs : List Char) :
    (∃ start, start <+: cs ∧ P (unsignedPart start)) ↔
      ∃ start, start <+: unsignedPart cs ∧ P start := by
  by_cases hplus : ∃ digits, cs = '+' :: digits
  · obtain ⟨digits, rfl⟩ := hplus
    exact exists_prefix_cons_iff (P := fun start => P (unsignedPart start)) hP '+' digits
  · have hstart : ∀ start, start <+: cs → unsignedPart start = start := by
      rintro start ⟨rest, rfl⟩
      refine unsignedPart_of_ne ?_
      rintro digits rfl
      exact hplus ⟨_, rfl⟩
    rw [hstart cs List.prefix_rfl]
    exact exists_congr fun start => and_congr_right fun h => by rw [hstart start h]

/-- The value is too large exactly if the text begins with a numeral of such a value. -/
theorem readBelow_eq_tooLarge_iff (hbase : base ≤ 16) (hbound : 0 < bound) (cs : List Char) :
    readBelow bound base cs = .error .tooLarge ↔
      ∃ start, start <+: cs ∧ ∃ value, IsNumeral base start value ∧ bound ≤ value := by
  let P : List Char → Prop := fun digits => ∃ value, HasDigits base digits value ∧ bound ≤ value
  have hP : ¬ P [] := fun ⟨_, hdigits, _⟩ => hdigits.1 rfl
  have happend : ∀ digits,
      (∃ read, appendDigits? base 0 digits = some read ∧ bound ≤ read) ↔ P digits := by
    intro digits
    refine exists_congr fun read => ?_
    rw [← ofDigits?_eq_some_iff hbase]
    cases digits with
    | nil =>
      -- nothing read is the value 0, which is below the bound
      constructor
      · rintro ⟨hread, hle⟩
        cases hread
        omega
      · rintro ⟨hread, -⟩
        cases hread
    | cons c digits => exact Iff.rfl
  calc
    readBelow bound base cs = .error .tooLarge
    _ ↔ appendBelow bound base 0 (unsignedPart cs) = .error .tooLarge := by
      rw [readBelow_eq]
      split
      case isTrue hnil =>
        rw [hnil]
        split <;> simp [appendBelow]
      case isFalse => exact Iff.rfl
    _ ↔ ∃ digits, digits <+: unsignedPart cs ∧ P digits := by
      simp only [appendBelow_eq_tooLarge_iff hbound, happend]
    _ ↔ ∃ start, start <+: cs ∧ P (unsignedPart start) :=
      (exists_prefix_unsignedPart_iff hP cs).symm
    _ ↔ ∃ start, start <+: cs ∧ ∃ value, IsNumeral base start value ∧ bound ≤ value := by
      simp only [P, isNumeral_iff hbase]

end

end Numeral

end Machine8086
