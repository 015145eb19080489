import Machine8086.Checked.Sink
import Machine8086.Proofs.Listing

/-!
# Listings in bytes

All characters of an assembly text are ASCII characters, by the parts of which it is made: names and
signs, and decimal numbers (`Instruction.ascii_text`). So each character of a listing is one byte
(`Ascii.textBytes_eq`), and a listing that is cut after so many characters is cut after as many
bytes (`Ascii.length_textBytes`, `Ascii.textBytes_take`).
-/

namespace Machine8086

/-! ## ASCII texts -/

/-- All characters of the text are ASCII characters. -/
def Ascii (text : String) : Prop := ∀ c ∈ text.toList, c.toNat < 128

namespace Ascii

/-- For a text that is written out, the characters are looked at one by one. -/
theorem of_all {text : String} (h : text.toList.all (fun c => decide (c.toNat < 128)) = true) :
    Ascii text := by
  intro c hc
  exact of_decide_eq_true (List.all_eq_true.1 h c hc)

theorem append {first second : String} (hfirst : Ascii first) (hsecond : Ascii second) :
    Ascii (first ++ second) := by
  intro c hc
  rw [String.toList_append, List.mem_append] at hc
  cases hc with
  | inl hc => exact hfirst c hc
  | inr hc => exact hsecond c hc

theorem join {texts : List String} (h : ∀ text ∈ texts, Ascii text) :
    Ascii (String.join texts) := by
  induction texts with
  | nil => exact nofun
  | cons text texts ih =>
    rw [String.join_cons]
    exact (h text List.mem_cons_self).append (ih fun t ht => h t (List.mem_cons_of_mem text ht))

/-- The code of an ASCII character is its only byte. -/
theorem utf8EncodeChar_eq {c : Char} (h : c.toNat < 128) :
    String.utf8EncodeChar c = [UInt8.ofNat c.toNat] := if_pos (Nat.le_of_lt_succ h)

theorem textBytes_eq {text : String} (h : Ascii text) :
    textBytes text = text.toList.map fun c => UInt8.ofNat c.toNat := by
  have hflat : textBytes text = text.toList.flatMap String.utf8EncodeChar := by
    rw [textBytes, ← String.ofList_toList (s := text), String.toByteArray_ofList,
      String.toList_ofList]
    simp [List.utf8Encode]
  rw [hflat, List.map_eq_flatMap]
  exact List.flatMap_congr fun c hc => utf8EncodeChar_eq (h c hc)

theorem length_textBytes {text : String} (h : Ascii text) :
    (textBytes text).length = text.length := by
  rw [h.textBytes_eq, List.length_map, String.length_toList]

theorem textBytes_take {text : String} (h : Ascii text) (count : Nat) :
    textBytes (String.ofList (text.toList.take count)) = (textBytes text).take count := by
  have hshorter : Ascii (String.ofList (text.toList.take count)) := by
    intro c hc
    rw [String.toList_ofList] at hc
    exact h c (List.mem_of_mem_take hc)
  rw [hshorter.textBytes_eq, h.textBytes_eq, String.toList_ofList, List.map_take]

end Ascii

/-! ## Assembly texts -/

theorem ascii_decimal (n : Nat) : Ascii (Numeral.decimal n) := by
  intro c hc
  have hdigit := isDigit_of_mem_decimal hc
  rw [Char.isDigit, Bool.and_eq_true, decide_eq_true_eq, decide_eq_true_eq] at hdigit
  have hnine : c.toNat ≤ 57 := hdigit.2
  omega

theorem Register.ascii_name (r : Register) : Ascii r.name := by
  cases r <;> exact .of_all rfl

theorem AddressBase.ascii_text (base : AddressBase) : Ascii base.text := by
  cases base <;> exact .of_all rfl

theorem MemoryOperand.ascii_text (o : MemoryOperand) : Ascii o.text := by
  cases o with
  | direct address =>
    have hopen : Ascii "[" := .of_all rfl
    exact (hopen.append (ascii_decimal _)).append (.of_all rfl)
  | based base displacement =>
    have hopen : Ascii "[" := .of_all rfl
    have hdisplacement : Ascii (displacementText displacement) := by
      rw [displacementText]
      split
      · exact .of_all rfl
      · split
        · exact .append (.of_all rfl) (ascii_decimal _)
        · exact .append (.of_all rfl) (ascii_decimal _)
    exact ((hopen.append base.ascii_text).append hdisplacement).append (.of_all rfl)

theorem Immediate.ascii_text (imm : Immediate) : Ascii imm.text := ascii_decimal _

theorem Operand.ascii_text (operand : Operand) : Ascii operand.text := by
  cases operand with
  | register r => exact r.ascii_name
  | memory o => exact o.ascii_text

theorem Source.ascii_text (source : Source) : Ascii source.text := by
  cases source with
  | register r => exact r.ascii_name
  | memory o => exact o.ascii_text
  | immediate imm => exact imm.ascii_text

theorem Width.ascii_keyword (w : Width) : Ascii w.keyword := by
  cases w <;> exact .of_all rfl

theorem ascii_jumpTargetText (offset : Int8) : Ascii (jumpTargetText offset) := by
  rw [jumpTargetText]
  split
  · exact .append (.of_all rfl) (ascii_decimal _)
  · exact .append (.of_all rfl) (ascii_decimal _)

theorem Operands.ascii_text (operands : Operands) : Ascii operands.text := by
  have hcomma : Ascii ", " := .of_all rfl
  have hblank : Ascii " " := .of_all rfl
  cases operands with
  | relative offset => exact ascii_jumpTargetText offset
  | pair destination source =>
    have hpair : Ascii (destination.text ++ ", " ++ source.text) :=
      (destination.ascii_text.append hcomma).append source.ascii_text
    cases source with
    | register r => cases destination <;> exact hpair
    | memory o => cases destination <;> exact hpair
    | immediate imm =>
      cases destination with
      | register r => exact hpair
      | memory o =>
        -- only here the size is written between the comma and the number
        exact (((o.ascii_text.append hcomma).append imm.width.ascii_keyword).append hblank).append
          imm.ascii_text

theorem Operation.ascii_mnemonic (operation : Operation) : Ascii operation.mnemonic := by
  cases operation <;> exact .of_all rfl

theorem Instruction.ascii_text (i : Instruction) : Ascii i.text := by
  have hblank : Ascii " " := .of_all rfl
  exact (i.operation.ascii_mnemonic.append hblank).append i.operands.ascii_text

/-- A listing has one byte for each character. -/
theorem Listing.ascii_text (listing : Listing) : Ascii listing.text := by
  have hheader : Ascii header := .of_all rfl
  refine hheader.append (.join fun text htext => ?_)
  obtain ⟨d, -, rfl⟩ := List.mem_map.1 htext
  exact d.instruction.ascii_text.append (.of_all rfl)

end Machine8086
