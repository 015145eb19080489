import Machine8086.Proofs.CommandLine.Trace

/-!
# Summaries are unambiguous

Behind its first line a summary has entries (`RunSummary.entries`): a label each and, unless the
entry is left out, a body behind a colon. The labels are the same in all summaries. No label has a
colon and no body goes over a line end, so a text shows which entries are there and with which
bodies (`entries_inj`). A body holds the number or the letters that it was made from, and only a
zero, no flags or no total leave an entry out. So the text determines all that a summary tells but
the number of steps, which is not printed (`text_eq_text_iff`).
-/

namespace Machine8086.RunSummary

/-! ## Entries -/

/-- The line of an entry; there is none without a body. -/
def entryText : String × Option String → String
  | (_, none) => ""
  | (label, some body) => label ++ ": " ++ body ++ "\n"

/-- The colon behind the label is the first one, and the line end behind the body as well. -/
def Separable (entry : String × Option String) : Prop :=
  ':' ∉ entry.1.toList ∧ ∀ body ∈ entry.2, Unbroken body

theorem toList_entryText_some (label body rest : String) :
    (entryText (label, some body) ++ rest).toList =
      label.toList ++ ':' :: ' ' :: (body.toList ++ '\n' :: rest.toList) := by
  simp [entryText]

/-- A text of entries does not begin with a label that none of them has. -/
theorem join_entries_ne {entries : List (String × Option String)} {label body rest : String}
    (hentries : ∀ entry ∈ entries, Separable entry) (hlabel : ':' ∉ label.toList)
    (hnone : label ∉ entries.map Prod.fst) :
    String.join (entries.map entryText) ≠ entryText (label, some body) ++ rest := by
  induction entries with
  | nil =>
    intro h
    have hlists := congrArg String.toList h
    rw [toList_entryText_some] at hlists
    simp at hlists
  | cons entry entries ih =>
    obtain ⟨first, body?⟩ := entry
    rw [List.forall_mem_cons] at hentries
    rw [List.map_cons, List.mem_cons, not_or] at hnone
    rw [List.map_cons, String.join_cons]
    cases body? with
    | none =>
      rw [entryText, String.empty_append]
      exact ih hentries.2 hnone.2
    | some body' =>
      intro h
      have hlists := congrArg String.toList h
      rw [toList_entryText_some, toList_entryText_some] at hlists
      have hsame := (append_cons_inj hentries.1.1 hlabel hlists).1
      exact hnone.1 (String.toList_inj.1 hsame).symm

/-- Entries with the same labels and the same text are equal. -/
theorem entries_inj {xs ys : List (String × Option String)}
    (hlabels : xs.map Prod.fst = ys.map Prod.fst) (hnodup : (xs.map Prod.fst).Nodup)
    (hxs : ∀ x ∈ xs, Separable x) (hys : ∀ y ∈ ys, Separable y)
    (h : String.join (xs.map entryText) = String.join (ys.map entryText)) : xs = ys := by
  induction xs generalizing ys with
  | nil => exact (List.map_eq_nil_iff.1 hlabels.symm).symm
  | cons x xs ih =>
    cases ys with
    | nil => cases hlabels
    | cons y ys =>
      obtain ⟨label, body?⟩ := x
      obtain ⟨label', body'?⟩ := y
      rw [List.map_cons, List.map_cons, List.cons.injEq] at hlabels
      obtain ⟨rfl, hlabels⟩ := hlabels
      rw [List.map_cons, List.nodup_cons] at hnodup
      rw [List.forall_mem_cons] at hxs hys
      rw [List.map_cons, List.map_cons, String.join_cons, String.join_cons] at h
      cases body? with
      | none =>
        rw [entryText, String.empty_append] at h
        cases body'? with
        | none =>
          rw [entryText, String.empty_append] at h
          rw [ih hlabels hnodup.2 hxs.2 hys.2 h]
        | some body' =>
          -- a line of this label cannot come from the entries behind
          exact absurd h (join_entries_ne hxs.2 hxs.1.1 hnodup.1)
      | some body =>
        cases body'? with
        | none =>
          rw [entryText.eq_1, String.empty_append] at h
          exact absurd h.symm (join_entries_ne hys.2 hys.1.1 (hlabels ▸ hnodup.1))
        | some body' =>
          have hlists := congrArg String.toList h
          rw [toList_entryText_some, toList_entryText_some] at hlists
          have hbodies := List.append_cancel_left hlists
          simp only [List.cons.injEq, true_and] at hbodies
          obtain ⟨hbody, hrest⟩ := append_cons_inj (hxs.1.2 body rfl) (hys.1.2 body' rfl) hbodies
          rw [String.toList_inj.1 hbody,
            ih hlabels hnodup.2 hxs.2 hys.2 (String.toList_inj.1 hrest)]

/-! ## The entries of a summary -/

/-- What is told of a word: its value twice, unless it is zero and not the instruction pointer. -/
def wordBody? (name : String) (value : UInt16) : Option String :=
  if value = 0 ∧ name ≠ "ip" then none
  else some ("0x" ++ Numeral.hex 4 value.toNat ++ " (" ++ Numeral.decimal value.toNat ++ ")")

/-- What is told of the flags: the letters of those that are set, if any. -/
def flagsBody? (flags : Flags) : Option String :=
  if flags.letters = "" then none else some flags.letters

/-- The entries of a summary. -/
def entries (s : RunSummary) : List (String × Option String) :=
  s.registers.words.map (fun word => ("      " ++ word.1, wordBody? word.1 word.2)) ++
    [("   flags", flagsBody? s.registers.flags), ("  clocks", s.totalClocks.map Numeral.decimal)]

theorem entryText_word (name : String) (value : UInt16) :
    entryText ("      " ++ name, wordBody? name value) = registerLine name value := by
  rw [wordBody?, registerLine]
  split
  · rfl
  · rw [entryText, ← String.toList_inj]
    simp

theorem entryText_flags (flags : Flags) :
    entryText ("   flags", flagsBody? flags) = flagsLine flags := by
  rw [flagsBody?, flagsLine]
  split
  · rfl
  · rfl

theorem entryText_clocks (total : Option Nat) :
    entryText ("  clocks", total.map Numeral.decimal) = clocksLine total := by
  cases total <;> rfl

/-- A summary is a header and its entries. -/
theorem text_eq_join_entries (s : RunSummary) :
    s.text = "Final registers:\n" ++ String.join (s.entries.map entryText) := by
  have hwords : (s.registers.words.map fun word => registerLine word.1 word.2) =
      (s.registers.words.map fun word =>
        (("      " ++ word.1, wordBody? word.1 word.2) : String × Option String)).map
          entryText := by
    rw [List.map_map]
    exact List.map_congr_left fun word _ => (entryText_word word.1 word.2).symm
  show "Final registers:\n" ++ String.join (s.registers.words.map fun word =>
    registerLine word.1 word.2) ++ flagsLine s.registers.flags ++ clocksLine s.totalClocks = _
  rw [hwords, ← entryText_flags, ← entryText_clocks, entries, List.map_append,
    String.join_append, List.map_cons, List.map_singleton, String.join_cons, String.join_cons,
    String.join_nil, String.append_empty, String.append_assoc, String.append_assoc]

/-- All summaries have the same labels. -/
theorem labels_entries (s : RunSummary) :
    s.entries.map Prod.fst =
      ["ax", "bx", "cx", "dx", "sp", "bp", "si", "di", "ip"].map ("      " ++ ·) ++
        ["   flags", "  clocks"] := rfl

theorem nodup_labels (s : RunSummary) : (s.entries.map Prod.fst).Nodup := by
  rw [labels_entries]
  decide

theorem unbroken_wordBody? {name body : String} {value : UInt16}
    (h : wordBody? name value = some body) : Unbroken body := by
  have hhex : Unbroken "0x" := by decide
  have hopen : Unbroken " (" := by decide
  have hclose : Unbroken ")" := by decide
  rw [wordBody?] at h
  split at h
  · cases h
  · cases h
    have hnumber : Unbroken ("0x" ++ Numeral.hex 4 value.toNat) := hhex.append (unbroken_hex _ _)
    exact ((hnumber.append hopen).append (unbroken_decimal _)).append hclose

theorem unbroken_flagsBody? {flags : Flags} {body : String} (h : flagsBody? flags = some body) :
    Unbroken body := by
  rw [flagsBody?] at h
  split at h
  · cases h
  · cases h
    exact flags.unbroken_letters

theorem separable_entries (s : RunSummary) : ∀ entry ∈ s.entries, Separable entry := by
  intro entry hentry
  have hlabels : ∀ label ∈ s.entries.map Prod.fst, ':' ∉ label.toList := by
    rw [labels_entries]
    decide
  refine ⟨hlabels entry.1 (List.mem_map_of_mem hentry), fun body hbody => ?_⟩
  rw [entries, List.mem_append, List.mem_pair] at hentry
  rcases hentry with hword | rfl | rfl
  · obtain ⟨⟨name, value⟩, -, rfl⟩ := List.mem_map.1 hword
    exact unbroken_wordBody? hbody
  · exact unbroken_flagsBody? hbody
  · obtain ⟨total, -, rfl⟩ := Option.map_eq_some_iff.1 hbody
    exact unbroken_decimal total

/-! ## What entries tell -/

/-- A word is known by what is told of it. -/
theorem wordBody?_injective (name : String) : Function.Injective (wordBody? name) := by
  intro v w h
  rw [wordBody?, wordBody?] at h
  by_cases hv : v = 0 ∧ name ≠ "ip"
  · by_cases hw : w = 0 ∧ name ≠ "ip"
    · rw [hv.1, hw.1]
    · rw [if_pos hv, if_neg hw] at h
      cases h
  · by_cases hw : w = 0 ∧ name ≠ "ip"
    · rw [if_neg hv, if_pos hw] at h
      cases h
    · rw [if_neg hv, if_neg hw, Option.some.injEq] at h
      have hlists := congrArg String.toList h
      have hparen : ∀ value : UInt16, '(' ∉ ("0x" ++ Numeral.hex 4 value.toNat ++ " ").toList := by
        intro value
        have hhex := not_mem_hex (fun _ => Nat.digitChar_ne '(' (by decide)) 4 value.toNat
        simp [hhex]
      -- the decimal number stands between the parentheses
      have hsplit := append_cons_inj (hparen v) (hparen w)
        (z := (Numeral.decimal v.toNat).toList ++ [')'])
        (w := (Numeral.decimal w.toNat).toList ++ [')']) (by simpa using hlists)
      have hdecimal := List.append_cancel_right hsplit.2
      exact UInt16.toNat_inj.1 (decimal_injective (String.toList_inj.1 hdecimal))

/-- The word of an entry is known by its label and by what is told of it. -/
theorem wordEntry_injective : Function.Injective
    fun word : String × UInt16 => ("      " ++ word.1, wordBody? word.1 word.2) := by
  rintro ⟨name, v⟩ ⟨name', w⟩ h
  obtain ⟨hlabel, hbody⟩ := Prod.mk.inj h
  have hname : name = name' := (String.append_right_inj _).1 hlabel
  subst hname
  have hvalue : v = w := wordBody?_injective name hbody
  rw [hvalue]

theorem letters_injective : Function.Injective Flags.letters := by
  rintro ⟨zero, sign⟩ ⟨zero', sign'⟩ h
  cases zero <;> cases sign <;> cases zero' <;> cases sign' <;>
    first | rfl | exact absurd h (by decide)

/-- Flags are known by what is told of them. -/
theorem flagsBody?_injective : Function.Injective flagsBody? := by
  intro f g h
  apply letters_injective
  rw [flagsBody?, flagsBody?] at h
  split at h
  case isTrue hf =>
    split at h
    case isTrue hg => rw [hf, hg]
    case isFalse hg => cases h
  case isFalse hf =>
    split at h
    case isTrue hg => cases h
    case isFalse hg => exact Option.some.inj h

theorem registers_eq_of_words_eq {c c' : Cpu} (hwords : c.words = c'.words)
    (hflags : c.flags = c'.flags) : c = c' := by
  cases c with | mk
  cases c' with | mk
  simp_all [Cpu.words]

/-- Two summaries have the same text exactly if they have the same registers and flags and the same
total of clocks, or none; the number of steps is not told. -/
theorem text_eq_text_iff (s t : RunSummary) :
    s.text = t.text ↔ s.registers = t.registers ∧ s.totalClocks = t.totalClocks := by
  constructor
  · intro h
    rw [text_eq_join_entries, text_eq_join_entries, String.append_right_inj] at h
    have hentries : s.entries = t.entries :=
      entries_inj rfl s.nodup_labels s.separable_entries t.separable_entries h
    obtain ⟨hwords, hrest⟩ := List.append_inj hentries rfl
    simp only [List.cons.injEq, Prod.mk.injEq, true_and, and_true] at hrest
    exact ⟨registers_eq_of_words_eq (List.map_injective_iff.2 wordEntry_injective hwords)
        (flagsBody?_injective hrest.1),
      Option.map_injective decimal_injective hrest.2⟩
  · obtain ⟨registers, steps, clocks⟩ := s
    obtain ⟨registers', steps', clocks'⟩ := t
    rintro ⟨rfl, rfl⟩
    rfl

end Machine8086.RunSummary
