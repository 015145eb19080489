import Machine8086.Instruction.Text
import Machine8086.Proofs.Arithmetic
import Machine8086.Proofs.WellFormed

/-!
# Assembly texts are unambiguous

The text of an operand has a lead without digits and a tail that is empty or begins with a digit.
The lead (`Lead`) tells the kind of operand, its registers and the sign of a displacement, the tail
one number. So a text has one reading: first the mnemonic up to the first blank, then the
destination up to the comma, then lead and tail of the source. `Instruction.text_inj` draws the
conclusion for well-formed instructions, in which the destination or the size keyword tells the
width of an immediate.
-/

namespace Machine8086

/-! ## Splitting texts -/

/-- A list has one split into elements with a property and a rest that does not begin with such
an element. -/
theorem append_inj_of_span {α : Type} {p : α → Prop} {x y z w : List α} (hx : ∀ c ∈ x, p c)
    (hy : ∀ c ∈ y, p c) (hz : ∀ c ∈ z.head?, ¬ p c) (hw : ∀ c ∈ w.head?, ¬ p c)
    (h : x ++ z = y ++ w) : x = y ∧ z = w := by
  induction x generalizing y with
  | nil =>
    cases y with
    | nil => exact ⟨rfl, h⟩
    | cons c y =>
      -- `z` would begin with an element of `y`
      rw [List.nil_append] at h
      exact absurd (hy c (by simp)) (hz c (by simp [h]))
  | cons b x ih =>
    cases y with
    | nil =>
      rw [List.nil_append] at h
      exact absurd (hx b (by simp)) (hw b (by simp [← h]))
    | cons c y =>
      simp only [List.cons_append, List.cons.injEq] at h
      obtain ⟨rfl, h⟩ := h
      obtain ⟨rfl, rfl⟩ := ih (fun c hc => hx c (by simp [hc])) (fun c hc => hy c (by simp [hc])) h
      exact ⟨rfl, rfl⟩

/-- Lists that agree around the first occurrence of a separator agree before and after it. -/
theorem append_cons_inj {α : Type} {sep : α} {x y z w : List α} (hx : sep ∉ x) (hy : sep ∉ y)
    (h : x ++ sep :: z = y ++ sep :: w) : x = y ∧ z = w := by
  have hsplit := append_inj_of_span (p := (· ≠ sep)) (fun c hc hsep => hx (hsep ▸ hc))
    (fun c hc hsep => hy (hsep ▸ hc)) (by simp) (by simp) h
  exact ⟨hsplit.1, by simpa using hsplit.2⟩

/-- A function with a search for its argument as inverse is injective. -/
theorem injective_of_find? {α : Type} {f : α → String} (all : List α)
    (h : ∀ a, all.find? (fun b => f b == f a) = some a) : Function.Injective f := by
  intro a b hab
  have ha := h a
  rw [hab, h b] at ha
  exact (Option.some.inj ha).symm

/-! ## Numbers -/

theorem decimal_injective : Function.Injective Numeral.decimal := by
  intro a b h
  have hdigits : Nat.toDigits 10 a = Nat.toDigits 10 b := String.ofList_inj.mp h
  calc
    a = Nat.ofDigitChars 10 (Nat.toDigits 10 a) 0 := Nat.ofDigitChars_ten_toDigits.symm
    _ = Nat.ofDigitChars 10 (Nat.toDigits 10 b) 0 := by rw [hdigits]
    _ = b := Nat.ofDigitChars_ten_toDigits

theorem isDigit_of_mem_decimal {n : Nat} {c : Char} (h : c ∈ (Numeral.decimal n).toList) :
    c.isDigit = true := by
  rw [Numeral.decimal, String.toList_ofList] at h
  exact Nat.isDigit_of_mem_toDigits (by decide) (by decide) h

theorem decimal_ne_nil (n : Nat) : (Numeral.decimal n).toList ≠ [] := by
  simp [Numeral.decimal]

/-- A text that is empty or begins with a digit. -/
def StartsWithDigit (s : String) : Prop := ∀ c ∈ s.toList.head?, c.isDigit = true

theorem startsWithDigit_empty : StartsWithDigit "" := by
  simp [StartsWithDigit]

theorem startsWithDigit_decimal (n : Nat) (s : String) :
    StartsWithDigit (Numeral.decimal n ++ s) := by
  intro c hc
  rw [String.toList_append] at hc
  cases hdigits : (Numeral.decimal n).toList with
  | nil => exact absurd hdigits (decimal_ne_nil n)
  | cons d digits =>
    have hd : d = c := by simpa [hdigits] using hc
    exact isDigit_of_mem_decimal (n := n) (by simp [hdigits, hd])

theorem startsWithDigit_number (n : Nat) : StartsWithDigit (Numeral.decimal n) := by
  have h := startsWithDigit_decimal n ""
  rwa [String.append_empty] at h

/-! ## Leads and tails -/

/-- What the text of an operand begins with, up to the first digit. -/
inductive Lead where
  | register (r : Register)
  | direct
  | based (base : AddressBase) (sign : Ordering)
  | immediate
  | sized (w : Width)
  | target (negative : Bool)
  deriving DecidableEq

namespace Lead

/-- The text of a lead; it ends an operand without number. -/
def text : Lead → String
  | register r => r.name
  | direct => "["
  | based base .eq => "[" ++ base.text ++ "]"
  | based base .gt => "[" ++ base.text ++ " + "
  | based base .lt => "[" ++ base.text ++ " - "
  | immediate => ""
  | sized w => w.keyword ++ " "
  | target false => "$+"
  | target true => "$-"

/-- All leads. -/
def all : List Lead :=
  Register.all.map register ++ [direct] ++
    ([.bxSi, .bxDi, .bpSi, .bpDi, .si, .di, .bp, .bx] : List AddressBase).flatMap
      (fun base => [based base .eq, based base .gt, based base .lt]) ++
    [immediate, sized .byte, sized .word, target false, target true]

theorem text_injective : Function.Injective text := by
  refine injective_of_find? all fun l => ?_
  cases l with
  | register r => cases r <;> rfl
  | direct => rfl
  | based base sign => cases base <;> cases sign <;> rfl
  | immediate => rfl
  | sized w => cases w <;> rfl
  | target negative => cases negative <;> rfl

theorem not_isDigit_of_mem_text (l : Lead) : ∀ c ∈ l.text.toList, ¬ c.isDigit = true := by
  have hall : l.text.toList.all (fun c => !c.isDigit) = true := by
    cases l with
    | register r => cases r <;> rfl
    | direct => rfl
    | based base sign => cases base <;> cases sign <;> rfl
    | immediate => rfl
    | sized w => cases w <;> rfl
    | target negative => cases negative <;> rfl
  intro c hc
  simpa using List.all_eq_true.mp hall c hc

/-- A text has one split into a lead and a tail that begins with a digit. -/
theorem append_inj {l l' : Lead} {t t' : String} (ht : StartsWithDigit t)
    (ht' : StartsWithDigit t') (h : l.text ++ t = l'.text ++ t') : l = l' ∧ t = t' := by
  have hlists := congrArg String.toList h
  rw [String.toList_append, String.toList_append] at hlists
  -- the lead is the part before the first digit
  have hsplit := append_inj_of_span (p := fun c : Char => ¬ c.isDigit = true)
    l.not_isDigit_of_mem_text l'.not_isDigit_of_mem_text (fun c hc hn => hn (ht c hc))
    (fun c hc hn => hn (ht' c hc)) hlists
  exact ⟨text_injective (String.toList_inj.mp hsplit.1), String.toList_inj.mp hsplit.2⟩

end Lead

/-! ## Operands -/

/-- The sign of a displacement. -/
def signOf (displacement : Int16) : Ordering :=
  if displacement.toInt = 0 then .eq else if 0 < displacement.toInt then .gt else .lt

theorem signOf_eq_eq_iff (d : Int16) : signOf d = .eq ↔ d.toInt = 0 := by
  rw [signOf]
  split
  · simp [*]
  · split <;> simp [*]

theorem signOf_eq_gt_iff (d : Int16) : signOf d = .gt ↔ 0 < d.toInt := by
  rw [signOf]
  split
  · simp [*]
  · split <;> simp [*]

/-- The sign and the amount determine a displacement. -/
theorem toInt_eq_of_signOf_eq {d d' : Int16} (hsign : signOf d = signOf d')
    (hamount : d.toInt.natAbs = d'.toInt.natAbs) : d.toInt = d'.toInt := by
  have hpos : 0 < d.toInt ↔ 0 < d'.toInt := by
    rw [← signOf_eq_gt_iff, ← signOf_eq_gt_iff, hsign]
  omega

namespace MemoryOperand

/-- The lead of a memory operand. -/
def lead : MemoryOperand → Lead
  | direct _ => .direct
  | based base displacement => .based base (signOf displacement)

/-- The address or the amount of the displacement, with the closing bracket; nothing when the
displacement is zero. -/
def tail : MemoryOperand → String
  | direct address => Numeral.decimal address.toNat ++ "]"
  | based _ displacement =>
    if displacement.toInt = 0 then "" else Numeral.decimal displacement.toInt.natAbs ++ "]"

theorem text_eq (o : MemoryOperand) : o.text = o.lead.text ++ o.tail := by
  cases o with
  | direct address => simp [text, lead, tail, Lead.text, String.append_assoc]
  | based base displacement =>
    simp only [text, lead, tail, signOf, displacementText]
    split
    · simp [Lead.text]
    · split
      · simp [Lead.text, String.append_assoc]
      · simp [Lead.text, String.append_assoc]

theorem startsWithDigit_tail (o : MemoryOperand) : StartsWithDigit o.tail := by
  cases o with
  | direct address => exact startsWithDigit_decimal _ _
  | based base displacement =>
    rw [tail]
    split
    · exact startsWithDigit_empty
    · exact startsWithDigit_decimal _ _

theorem eq_of_lead_eq {o o' : MemoryOperand} (hlead : o.lead = o'.lead)
    (htail : o.tail = o'.tail) : o = o' := by
  have hnumber : ∀ {a b : Nat}, Numeral.decimal a ++ "]" = Numeral.decimal b ++ "]" → a = b :=
    fun h => decimal_injective (by simpa using h)
  cases o with
  | direct address =>
    cases o' with
    | direct address' => rw [UInt16.toNat_inj.mp (hnumber htail)]
    | based base' displacement' => cases hlead
  | based base displacement =>
    cases o' with
    | direct address' => cases hlead
    | based base' displacement' =>
      simp only [lead, Lead.based.injEq] at hlead
      obtain ⟨rfl, hsign⟩ := hlead
      have hzeros : displacement.toInt = 0 ↔ displacement'.toInt = 0 := by
        rw [← signOf_eq_eq_iff, ← signOf_eq_eq_iff, hsign]
      have hvalue : displacement.toInt = displacement'.toInt := by
        by_cases hzero : displacement.toInt = 0
        · rw [hzero, hzeros.1 hzero]
        · -- only a displacement other than zero is written, by its amount
          rw [tail, tail, if_neg hzero, if_neg (mt hzeros.2 hzero)] at htail
          exact toInt_eq_of_signOf_eq hsign (hnumber htail)
      rw [Int16.toInt_inj.mp hvalue]

end MemoryOperand

/-- The lead of a source; the width of an immediate shows when the destination is in memory. -/
def sourceLead (destination : Operand) : Source → Lead
  | .register r => .register r
  | .memory o => o.lead
  | .immediate imm =>
    match destination with
    | .register _ => .immediate
    | .memory _ => .sized imm.width

/-- The number in the text of a source. -/
def Source.tail : Source → String
  | register _ => ""
  | memory o => o.tail
  | immediate imm => imm.text

theorem Source.startsWithDigit_tail (source : Source) : StartsWithDigit source.tail := by
  cases source with
  | register r => exact startsWithDigit_empty
  | memory o => exact o.startsWithDigit_tail
  | immediate imm => exact startsWithDigit_number _

theorem Operands.text_pair (destination : Operand) (source : Source) :
    (pair destination source).text =
      destination.text ++ ", " ++ ((sourceLead destination source).text ++ source.tail) := by
  cases source with
  | register r => cases destination <;> simp [text, Source.text, sourceLead, Source.tail, Lead.text]
  | memory o =>
    cases destination <;> simp [text, Source.text, sourceLead, Source.tail, o.text_eq]
  | immediate imm =>
    cases destination with
    | register r => simp [text, Source.text, sourceLead, Source.tail, Lead.text]
    | memory o => simp [text, Operand.text, sourceLead, Source.tail, Lead.text, String.append_assoc]

/-- A fitting immediate is known by its number and its width. -/
theorem Immediate.eq_of_text_eq {imm imm' : Immediate} (hfits : imm.Fits) (hfits' : imm'.Fits)
    (htext : imm.text = imm'.text) (hwidth : imm.width = imm'.width) : imm = imm' := by
  have hread := decimal_injective htext
  rw [read, read, Width.toNat_truncate_of_lt hfits, Width.toNat_truncate_of_lt hfits'] at hread
  obtain ⟨value, width⟩ := imm
  obtain ⟨value', width'⟩ := imm'
  rw [mk.injEq]
  exact ⟨UInt16.toNat_inj.mp hread, hwidth⟩

theorem Operand.text_injective : Function.Injective Operand.text := by
  intro d d' h
  have hregister : ∀ {r : Register} {o : MemoryOperand}, r.name ≠ o.text := by
    intro r o hname
    -- a register name is a lead of its own, and no lead of a memory operand is that
    rw [o.text_eq, ← String.append_empty (s := r.name)] at hname
    have hlead := (Lead.append_inj (l := .register r) startsWithDigit_empty
      o.startsWithDigit_tail hname).1
    cases o <;> cases hlead
  cases d with
  | register r =>
    cases d' with
    | register r' =>
      have hlead : Lead.register r = Lead.register r' := Lead.text_injective h
      rw [Lead.register.inj hlead]
    | memory o' => exact absurd h hregister
  | memory o =>
    cases d' with
    | register r' => exact absurd h.symm hregister
    | memory o' =>
      rw [text, text, o.text_eq, o'.text_eq] at h
      obtain ⟨hlead, htail⟩ := Lead.append_inj o.startsWithDigit_tail o'.startsWithDigit_tail h
      rw [MemoryOperand.eq_of_lead_eq hlead htail]

/-- Beside one destination, matched sources are known by lead and tail. -/
theorem Matched.source_eq {destination : Operand} {source source' : Source}
    (h : Matched destination source) (h' : Matched destination source')
    (hlead : sourceLead destination source = sourceLead destination source')
    (htail : source.tail = source'.tail) : source = source' := by
  cases source with
  | register r =>
    cases source' with
    | register r' => rw [Lead.register.inj hlead]
    | memory o' => cases o' <;> cases hlead
    | immediate imm' => cases destination <;> cases hlead
  | memory o =>
    cases source' with
    | register r' => cases o <;> cases hlead
    | memory o' => rw [MemoryOperand.eq_of_lead_eq hlead htail]
    | immediate imm' => cases destination <;> cases o <;> cases hlead
  | immediate imm =>
    cases source' with
    | register r' => cases destination <;> cases hlead
    | memory o' => cases destination <;> cases o' <;> cases hlead
    | immediate imm' =>
      -- the width comes from the destination register or from the size keyword
      cases destination with
      | register r => rw [Immediate.eq_of_text_eq h.2 h'.2 htail (h.1.trans h'.1.symm)]
      | memory o => rw [Immediate.eq_of_text_eq h h' htail (Lead.sized.inj hlead)]

/-! ## Jump targets -/

theorem jumpTargetText_eq (offset : Int8) :
    jumpTargetText offset =
      (Lead.target (decide (offset.toInt + 2 < 0))).text ++
        Numeral.decimal (offset.toInt + 2).natAbs := by
  rw [jumpTargetText]
  by_cases h : offset.toInt + 2 < 0
  · rw [if_neg (by omega), decide_eq_true h, Lead.text]
  · rw [if_pos (by omega), decide_eq_false h, Lead.text]

theorem jumpTargetText_injective : Function.Injective jumpTargetText := by
  intro offset offset' h
  rw [jumpTargetText_eq, jumpTargetText_eq] at h
  obtain ⟨hlead, hnumber⟩ :=
    Lead.append_inj (startsWithDigit_number _) (startsWithDigit_number _) h
  have hsign := decide_eq_decide.mp (Lead.target.inj hlead)
  have hamount := decimal_injective hnumber
  exact Int8.toInt_inj.mp (by omega)

/-! ## Separating characters -/

/-- Neither a comma nor a line end stands in a text. -/
def Plain (s : String) : Prop := ',' ∉ s.toList ∧ '\n' ∉ s.toList

theorem Plain.append {s t : String} (hs : Plain s) (ht : Plain t) : Plain (s ++ t) := by
  simp only [Plain, String.toList_append, List.mem_append]
  exact ⟨fun h => h.elim hs.1 ht.1, fun h => h.elim hs.2 ht.2⟩

theorem plain_empty : Plain "" := ⟨by decide, by decide⟩

theorem plain_decimal (n : Nat) : Plain (Numeral.decimal n) := by
  constructor
  · intro h
    exact absurd (isDigit_of_mem_decimal h) (by decide)
  · intro h
    exact absurd (isDigit_of_mem_decimal h) (by decide)

theorem Lead.plain_text (l : Lead) : Plain l.text := by
  cases l with
  | register r => cases r <;> exact ⟨by decide, by decide⟩
  | direct => exact ⟨by decide, by decide⟩
  | based base sign => cases base <;> cases sign <;> exact ⟨by decide, by decide⟩
  | immediate => exact plain_empty
  | sized w => cases w <;> exact ⟨by decide, by decide⟩
  | target negative => cases negative <;> exact ⟨by decide, by decide⟩

theorem MemoryOperand.plain_tail (o : MemoryOperand) : Plain o.tail := by
  have hnumber : ∀ n, Plain (Numeral.decimal n ++ "]") := fun n =>
    (plain_decimal n).append ⟨by decide, by decide⟩
  cases o with
  | direct address => exact hnumber _
  | based base displacement =>
    rw [tail]
    split
    · exact plain_empty
    · exact hnumber _

theorem Source.plain_tail (source : Source) : Plain source.tail := by
  cases source with
  | register r => exact plain_empty
  | memory o => exact o.plain_tail
  | immediate imm => exact plain_decimal _

theorem Operand.plain_text (operand : Operand) : Plain operand.text := by
  cases operand with
  | register r => exact (Lead.register r).plain_text
  | memory o =>
    rw [text, o.text_eq]
    exact o.lead.plain_text.append o.plain_tail

theorem Operation.mnemonic_injective : Function.Injective Operation.mnemonic :=
  injective_of_find? Operation.all fun operation => by cases operation <;> rfl

theorem Operation.not_mem_mnemonic (operation : Operation) :
    ' ' ∉ operation.mnemonic.toList ∧ '\n' ∉ operation.mnemonic.toList := by
  cases operation <;> exact ⟨by decide, by decide⟩

theorem Operands.newline_not_mem_text (operands : Operands) : '\n' ∉ operands.text.toList := by
  cases operands with
  | pair destination source =>
    have hd := destination.plain_text.2
    have hs := ((sourceLead destination source).plain_text.append source.plain_tail).2
    rw [String.toList_append] at hs
    simp only [text_pair, String.toList_append, List.mem_append] at hs ⊢
    simp [hd, hs]
  | relative offset =>
    rw [text, jumpTargetText_eq]
    exact ((Lead.plain_text _).append (plain_decimal _)).2

/-- Matched operands of the same text are equal. -/
theorem Operands.pair_inj {destination destination' : Operand} {source source' : Source}
    (h : Matched destination source) (h' : Matched destination' source')
    (htext : (pair destination source).text = (pair destination' source').text) :
    pair destination source = pair destination' source' := by
  have hlists := congrArg String.toList htext
  simp only [text_pair, String.toList_append, List.append_assoc] at hlists
  -- the first comma ends the destination
  obtain ⟨hdestination, hsource⟩ :=
    append_cons_inj destination.plain_text.1 destination'.plain_text.1 hlists
  obtain rfl := Operand.text_injective (String.toList_inj.mp hdestination)
  obtain ⟨hlead, htail⟩ := Lead.append_inj source.startsWithDigit_tail source'.startsWithDigit_tail
    (String.toList_inj.mp (by simpa using hsource))
  rw [h.source_eq h' hlead htail]

/-! ## Instructions -/

namespace Instruction

theorem toList_text (i : Instruction) :
    i.text.toList = i.operation.mnemonic.toList ++ ' ' :: i.operands.text.toList := by
  simp [text]

theorem text_ne_empty (i : Instruction) : i.text ≠ "" := by
  rw [← String.toList_inj.ne, toList_text]
  simp

theorem newline_not_mem_text (i : Instruction) : '\n' ∉ i.text.toList := by
  rw [toList_text]
  simp [i.operation.not_mem_mnemonic.2, i.operands.newline_not_mem_text]

/-- Well-formed instructions of the same text are equal. -/
theorem text_inj {i j : Instruction} (hi : i.WellFormed) (hj : j.WellFormed)
    (h : i.text = j.text) : i = j := by
  have hlists := congrArg String.toList h
  rw [toList_text, toList_text] at hlists
  -- the first blank ends the mnemonic
  obtain ⟨hmnemonic, hoperands⟩ :=
    append_cons_inj i.operation.not_mem_mnemonic.1 j.operation.not_mem_mnemonic.1 hlists
  obtain ⟨operation, operands⟩ := i
  obtain ⟨operation', operands'⟩ := j
  obtain rfl := Operation.mnemonic_injective (String.toList_inj.mp hmnemonic)
  have htext : operands.text = operands'.text := String.toList_inj.mp hoperands
  cases operands with
  | pair destination source =>
    cases operands' with
    | pair destination' source' => rw [Operands.pair_inj hi.2 hj.2 htext]
    | relative offset' => exact absurd (hi.1.symm.trans hj) (by decide)
  | relative offset =>
    cases operands' with
    | pair destination' source' => exact absurd (hj.1.symm.trans hi) (by decide)
    | relative offset' => rw [jumpTargetText_injective htext]

end Instruction

end Machine8086
