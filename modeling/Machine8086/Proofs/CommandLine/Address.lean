import Machine8086.CommandLine.Address
import Machine8086.CommandLine.Arguments
import Machine8086.Proofs.Numeral.Reading

/-!
# The grammar of load addresses

A load address is a text of a grammar: a hexadecimal numeral behind a marker, or a decimal numeral
(`IsAddress`). The two do not overlap, because a decimal numeral has no letter in its second place
(`not_isNumeral_of_marker`); so the address is the numeral that is found by looking for the marker
first (`isAddress_iff`). `addresses_read_by_grammar` says that the addresses of 16 bits are what is
read, and why anything else is not.
-/

namespace Machine8086

namespace CommandLine

open Numeral

/-- The texts of load addresses with their values: hexadecimal numerals behind `0x` or `0X`, and
decimal numerals. -/
inductive IsAddress : List Char → Nat → Prop
  | hexadecimal {marker : Char} {digits : List Char} {value : Nat}
      (hmarker : marker = 'x' ∨ marker = 'X') (h : IsNumeral 16 digits value) :
      IsAddress ('0' :: marker :: digits) value
  | decimal {digits : List Char} {value : Nat} (h : IsNumeral 10 digits value) :
      IsAddress digits value

theorem base_addressParts (cs : List Char) :
    (addressParts cs).1 = 10 ∨ (addressParts cs).1 = 16 := by
  unfold addressParts
  split
  case h_1 => exact .inr rfl
  case h_2 => exact .inr rfl
  case h_3 => exact .inl rfl

theorem addressParts_of_marker {marker : Char} (hmarker : marker = 'x' ∨ marker = 'X')
    (digits : List Char) : addressParts ('0' :: marker :: digits) = (16, digits) := by
  obtain rfl | rfl := hmarker <;> rfl

theorem addressParts_of_ne {cs : List Char}
    (h : ∀ marker digits, (marker = 'x' ∨ marker = 'X') → cs ≠ '0' :: marker :: digits) :
    addressParts cs = (10, cs) := by
  unfold addressParts
  split
  case h_1 digits => exact absurd rfl (h 'x' digits (.inl rfl))
  case h_2 digits => exact absurd rfl (h 'X' digits (.inr rfl))
  case h_3 => rfl

theorem addressParts_eq_nil_iff (cs : List Char) :
    (addressParts cs).2 = [] ↔ cs ∈ [[], ['0', 'x'], ['0', 'X']] := by
  unfold addressParts
  split
  case h_1 digits => simp
  case h_2 digits => simp
  case h_3 hx hX =>
    constructor
    · rintro rfl
      exact List.mem_cons_self
    · intro h
      rw [List.mem_cons, List.mem_cons, List.mem_singleton] at h
      obtain rfl | rfl | rfl := h
      · rfl
      · exact (hx [] rfl).elim
      · exact (hX [] rfl).elim

/-- A decimal numeral has no letter in its second place. -/
theorem not_isNumeral_of_marker {marker : Char} (hmarker : marker = 'x' ∨ marker = 'X')
    (digits : List Char) (value : Nat) : ¬ IsNumeral 10 ('0' :: marker :: digits) value := by
  rw [← unsigned?_eq_some_iff (by decide)]
  obtain rfl | rfl := hmarker <;> exact nofun

theorem isAddress_iff (cs : List Char) (value : Nat) :
    IsAddress cs value ↔ IsNumeral (addressParts cs).1 (addressParts cs).2 value := by
  by_cases h : ∃ marker digits, (marker = 'x' ∨ marker = 'X') ∧ cs = '0' :: marker :: digits
  · obtain ⟨marker, digits, hmarker, rfl⟩ := h
    rw [addressParts_of_marker hmarker]
    constructor
    · rintro (⟨-, hnumeral⟩ | hnumeral)
      · exact hnumeral
      · exact absurd hnumeral (not_isNumeral_of_marker hmarker digits value)
    · exact .hexadecimal hmarker
  · rw [addressParts_of_ne fun marker digits hmarker hcs => h ⟨marker, digits, hmarker, hcs⟩]
    constructor
    · rintro (⟨hmarker, hnumeral⟩ | hnumeral)
      · exact absurd ⟨_, _, hmarker, rfl⟩ h
      · exact hnumeral
    · exact .decimal

/-- A text begins with an address of a value that is not 0 exactly if its numeral does so. -/
theorem exists_prefix_isAddress_iff {P : Nat → Prop} (hP : ¬ P 0) (cs : List Char) :
    (∃ start, start <+: cs ∧ ∃ value, IsAddress start value ∧ P value) ↔
      ∃ start, start <+: (addressParts cs).2 ∧
        ∃ value, IsNumeral (addressParts cs).1 start value ∧ P value := by
  by_cases h : ∃ marker digits, (marker = 'x' ∨ marker = 'X') ∧ cs = '0' :: marker :: digits
  · obtain ⟨marker, digits, hmarker, rfl⟩ := h
    let Q : List Char → Prop := fun start => ∃ value, IsAddress start value ∧ P value
    -- an address that ends before the marker is the number 0
    have hnil : ¬ Q [] := by
      rintro ⟨value, haddress, -⟩
      rw [isAddress_iff, ← unsigned?_eq_some_iff (by decide)] at haddress
      cases haddress
    have hzero : ¬ Q ['0'] := by
      rintro ⟨value, haddress, hvalue⟩
      rw [isAddress_iff, ← unsigned?_eq_some_iff (by decide)] at haddress
      cases haddress
      exact hP hvalue
    rw [addressParts_of_marker hmarker]
    calc
      (∃ start, start <+: '0' :: marker :: digits ∧ Q start)
      _ ↔ ∃ start, start <+: marker :: digits ∧ Q ('0' :: start) :=
        exists_prefix_cons_iff hnil ..
      _ ↔ ∃ start, start <+: digits ∧ Q ('0' :: marker :: start) :=
        exists_prefix_cons_iff (P := fun start => Q ('0' :: start)) hzero ..
      _ ↔ ∃ start, start <+: digits ∧ ∃ value, IsNumeral 16 start value ∧ P value := by
        simp only [Q, isAddress_iff, addressParts_of_marker hmarker]
  · have hparts : ∀ start, start <+: cs → addressParts start = (10, start) := by
      rintro start ⟨rest, rfl⟩
      refine addressParts_of_ne ?_
      rintro marker digits hmarker rfl
      exact h ⟨marker, digits ++ rest, hmarker, rfl⟩
    rw [hparts cs List.prefix_rfl]
    refine exists_congr fun start => and_congr_right fun hstart => ?_
    simp only [isAddress_iff, hparts start hstart]

theorem readAddress_eq (text : String) :
    readAddress text =
      ((readBelow 65536 (addressParts text.toList).1 (addressParts text.toList).2).map
        UInt16.ofNat).mapError (AddressError.mk text) :=
  rfl

theorem readAddress_eq_ok_iff (text : String) (value : UInt16) :
    readAddress text = .ok value ↔ IsAddress text.toList value.toNat := by
  have hbase := base_addressParts text.toList
  have hread : ∀ n, readBelow 65536 (addressParts text.toList).1 (addressParts text.toList).2 =
      .ok n ↔ _ := readBelow_eq_ok_iff (by omega) (by omega) _
  rw [isAddress_iff, ← unsigned?_eq_some_iff (by omega), readAddress_eq]
  constructor
  · intro h
    cases hparts : readBelow 65536 (addressParts text.toList).1 (addressParts text.toList).2 with
    | error cause =>
      rw [hparts] at h
      cases h
    | ok n =>
      obtain ⟨hunsigned, hless⟩ := (hread n).1 hparts
      rw [hparts] at h
      cases h
      rwa [UInt16.toNat_ofNat_of_lt' hless]
  · intro h
    rw [(hread _).2 ⟨h, value.toNat_lt⟩]
    exact congrArg Except.ok UInt16.ofNat_toNat

theorem readAddress_eq_error_iff (text : String) (e : AddressError) :
    readAddress text = .error e ↔
      e.text = text ∧
        readBelow 65536 (addressParts text.toList).1 (addressParts text.toList).2 =
          .error e.cause := by
  obtain ⟨given, cause⟩ := e
  rw [readAddress_eq]
  cases readBelow 65536 (addressParts text.toList).1 (addressParts text.toList).2 with
  | ok n => simp [Except.map, Except.mapError]
  | error other => simp [Except.map, Except.mapError, eq_comm]

theorem exists_error_iff (text : String) :
    (∃ e, readAddress text = .error e) ↔
      ¬ ∃ value, IsAddress text.toList value ∧ value ≤ 65535 := by
  cases hread : readAddress text with
  | ok value =>
    have haddress := (readAddress_eq_ok_iff text value).1 hread
    have hle := Nat.le_of_lt_succ value.toNat_lt
    simpa using ⟨value.toNat, haddress, hle⟩
  | error e =>
    refine ⟨fun _ ⟨value, haddress, hle⟩ => ?_, fun _ => ⟨e, rfl⟩⟩
    have hvalue : (UInt16.ofNat value).toNat = value :=
      UInt16.toNat_ofNat_of_lt' (Nat.lt_succ_of_le hle)
    rw [← hvalue, ← readAddress_eq_ok_iff, hread] at haddress
    cases haddress

theorem cause_eq_empty_iff {text : String} {e : AddressError} (h : readAddress text = .error e) :
    e.cause = .empty ↔ text.toList ∈ [[], ['0', 'x'], ['0', 'X']] := by
  have hread := ((readAddress_eq_error_iff text e).1 h).2
  rw [← Except.error.injEq, ← hread, readBelow_eq_empty_iff]
  exact addressParts_eq_nil_iff text.toList

theorem cause_eq_tooLarge_iff {text : String} {e : AddressError}
    (h : readAddress text = .error e) :
    e.cause = .tooLarge ↔
      ∃ start, start <+: text.toList ∧ ∃ value, IsAddress start value ∧ 65535 < value := by
  have hbase := base_addressParts text.toList
  have hread := ((readAddress_eq_error_iff text e).1 h).2
  rw [← Except.error.injEq, ← hread, readBelow_eq_tooLarge_iff (by omega) (by omega)]
  exact (exists_prefix_isAddress_iff (by decide) text.toList).symm

/-! ## The conclusion -/

/-- A text is read as a load address exactly if it is `0x` or `0X` and a hexadecimal numeral, or a
decimal numeral, with a value that fits 16 bits, and then as this value; every other text is an
error, which names the text. The cause is that nothing stands behind the marker, that the text
begins with an address that is too large, or else a character that is no digit. -/
theorem addresses_read_by_grammar (text : String) :
    (∀ value : UInt16, readAddress text = .ok value ↔ IsAddress text.toList value.toNat) ∧
      ((∃ e, readAddress text = .error e) ↔
        ¬ ∃ value, IsAddress text.toList value ∧ value ≤ 65535) ∧
      (∀ e, readAddress text = .error e → e.text = text ∧
        (e.cause = .empty ↔ text.toList ∈ [[], ['0', 'x'], ['0', 'X']]) ∧
        (e.cause = .tooLarge ↔
          ∃ start, start <+: text.toList ∧ ∃ value, IsAddress start value ∧ 65535 < value)) ∧
      address? text = (readAddress text).toOption :=
  ⟨readAddress_eq_ok_iff text, exists_error_iff text,
    fun e h => ⟨((readAddress_eq_error_iff text e).1 h).1, cause_eq_empty_iff h,
      cause_eq_tooLarge_iff h⟩,
    rfl⟩

/-- A marker in capitals, a plus sign behind it, leading zeros and digits of both cases make an
address; one digit more than 16 bits hold makes none. -/
theorem addresses_read_by_grammar_hexadecimal :
    readAddress "0X+00fF" = .ok 255 ∧ IsAddress "0X+00fF".toList 255 ∧
      readAddress "0x10000" = .error ⟨"0x10000", .tooLarge⟩ ∧
      (∃ start, start <+: "0x10000".toList ∧ ∃ value, IsAddress start value ∧ 65535 < value) ∧
      address? "0x10000" = none := by
  have hfits : readAddress "0X+00fF" = .ok 255 := by decide
  have hlarge : readAddress "0x10000" = .error ⟨"0x10000", .tooLarge⟩ := by decide
  obtain ⟨hok, -⟩ := addresses_read_by_grammar "0X+00fF"
  obtain ⟨-, -, herror, hoption⟩ := addresses_read_by_grammar "0x10000"
  refine ⟨hfits, (hok 255).1 hfits, hlarge, ((herror _ hlarge).2.2).1 rfl, ?_⟩
  rw [hoption, hlarge]
  rfl

end CommandLine

end Machine8086
