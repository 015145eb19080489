import Machine8086.Listing
import Machine8086.Proofs.Text

/-!
# Listings

A listing follows its recursion: at the end it is empty, at an error it stops, and otherwise it is
one instruction and the listing of what comes after. All its instructions are decoded ones
(`decodable_of_mem_listing`), so their texts are unambiguous, and no text holds a line end; hence
the lines of a listing determine its instructions (`Listing.instructions_eq_of_lines_eq`).
-/

namespace Machine8086

namespace Memory

variable (m : Memory) {stop position : Nat} (index : Nat)

theorem listing_of_le (h : stop ≤ position) : m.listing stop position index = ⟨[], none⟩ := by
  rw [listing, if_neg (by omega)]

theorem listing_of_error {e : DecodeError} (h : position < stop)
    (hdecode : decode m (UInt16.ofNat position) stop = .error e) :
    m.listing stop position index = ⟨[], some ⟨index, UInt16.ofNat position, e⟩⟩ := by
  rw [listing, if_pos h]
  split
  case h_1 source hsource =>
    rw [hdecode, Except.error.injEq] at hsource
    rw [hsource]
  case h_2 d hd => cases hdecode.symm.trans hd

theorem listing_of_ok {d : Decoded} (h : position < stop)
    (hdecode : decode m (UInt16.ofNat position) stop = .ok d) :
    m.listing stop position index =
      { m.listing stop (position + d.size) (index + 1) with
        instructions := d :: (m.listing stop (position + d.size) (index + 1)).instructions } := by
  rw [listing, if_pos h]
  split
  case h_1 source hsource => cases hdecode.symm.trans hsource
  case h_2 d' hd' =>
    rw [hdecode, Except.ok.injEq] at hd'
    rw [hd']

/-- Induction along a listing: at the end, at an instruction that does not decode, and from what
comes after an instruction to the whole. -/
theorem listing_induction {motive : Nat → Nat → Listing → Prop}
    (done : ∀ position index, stop ≤ position → motive position index ⟨[], none⟩)
    (failed : ∀ position index e, position < stop →
      decode m (UInt16.ofNat position) stop = .error e →
        motive position index ⟨[], some ⟨index, UInt16.ofNat position, e⟩⟩)
    (listed : ∀ position index d rest, position < stop →
      decode m (UInt16.ofNat position) stop = .ok d → motive (position + d.size) (index + 1) rest →
        motive position index { rest with instructions := d :: rest.instructions }) :
    motive position index (m.listing stop position index) := by
  induction hn : stop - position using Nat.strongRecOn generalizing position index with
  | ind n ih =>
    by_cases hposition : position < stop
    · cases hdecode : decode m (UInt16.ofNat position) stop with
      | error e =>
        rw [m.listing_of_error index hposition hdecode]
        exact failed position index e hposition hdecode
      | ok d =>
        rw [m.listing_of_ok index hposition hdecode]
        -- what is left is shorter, as no instruction is empty
        have hsize := (decode_eq_ok hdecode).2
        exact listed position index d _ hposition hdecode
          (ih (stop - (position + d.size)) (by omega) (index + 1) rfl)
    · rw [m.listing_of_le index (by omega)]
      exact done position index (by omega)

/-- The instructions of a listing come from the decoder. -/
theorem decodable_of_mem_listing {m : Memory} {stop position index : Nat} {d : Decoded}
    (h : d ∈ (m.listing stop position index).instructions) : d.instruction.Decodable := by
  revert h
  refine m.listing_induction (motive := fun _ _ l => d ∈ l.instructions → d.instruction.Decodable)
    index ?_ ?_ ?_
  · intro position index hposition h
    cases h
  · intro position index e hposition hdecode h
    cases h
  · intro position index d' rest hposition hdecode ih h
    rcases List.mem_cons.1 h with rfl | h
    · exact ⟨m, _, stop, d, hdecode, rfl⟩
    · exact ih h

/-- Each instruction of a listing lies behind those listed before it. -/
theorem address_of_listing (hspace : stop ≤ addressSpace) :
    ∀ k d, (m.listing stop position index).instructions[k]? = some d →
      d.address.toNat = position +
        (((m.listing stop position index).instructions.take k).map Decoded.size).sum := by
  refine m.listing_induction (motive := fun position _ l => ∀ k d, l.instructions[k]? = some d →
    d.address.toNat = position + ((l.instructions.take k).map Decoded.size).sum) index ?_ ?_ ?_
  · intro position index hposition k d h
    simp at h
  · intro position index e hposition hdecode k d h
    simp at h
  · intro position index d rest hposition hdecode ih k d' h
    cases k with
    | zero =>
      obtain rfl : d = d' := by simpa using h
      rw [(decode_eq_ok hdecode).1,
        UInt16.toNat_ofNat_of_lt' (Nat.lt_of_lt_of_le hposition hspace)]
      rfl
    | succ k =>
      rw [ih k d' (by simpa using h), List.take_succ_cons, List.map_cons, List.sum_cons,
        Nat.add_assoc]

/-- A listing depends only on the bytes that it lists. -/
theorem listing_congr {n : Memory} (hspace : stop ≤ addressSpace)
    (h : ∀ a : UInt16, position ≤ a.toNat → a.toNat < stop → m.read a = n.read a) :
    m.listing stop position index = n.listing stop position index := by
  revert h
  refine m.listing_induction (motive := fun position index l =>
    (∀ a : UInt16, position ≤ a.toNat → a.toNat < stop → m.read a = n.read a) →
      l = n.listing stop position index) index ?_ ?_ ?_
  all_goals
    intro position index
    have hdecode : position < stop →
        (∀ a : UInt16, position ≤ a.toNat → a.toNat < stop → m.read a = n.read a) →
          decode m (UInt16.ofNat position) stop = decode n (UInt16.ofNat position) stop := by
      intro hposition h
      have htoNat : (UInt16.ofNat position).toNat = position :=
        UInt16.toNat_ofNat_of_lt' (Nat.lt_of_lt_of_le hposition hspace)
      exact decode_congr fun a ha => h a (htoNat ▸ ha)
  · intro hposition h
    rw [n.listing_of_le index hposition]
  · intro e hposition herror h
    rw [n.listing_of_error index hposition ((hdecode hposition h).symm.trans herror)]
  · intro d rest hposition hok ih h
    rw [n.listing_of_ok index hposition ((hdecode hposition h).symm.trans hok),
      ih fun a ha => h a (by omega)]

end Memory

namespace Listing

theorem disassembly_eq_ok_iff (listing : Listing) (text : String) :
    listing.disassembly = .ok text ↔ listing.failure = none ∧ listing.text = text := by
  rw [disassembly]
  cases listing.failure with
  | none => simp
  | some e => simp

theorem toList_join_lines (d : Decoded) (ds : List Decoded) :
    (String.join ((d :: ds).map line)).toList =
      d.instruction.text.toList ++ '\n' :: (String.join (ds.map line)).toList := by
  simp [line, String.toList_join]

/-- The lines of decoded instructions determine the instructions. -/
theorem instructions_eq_of_lines_eq {ds es : List Decoded}
    (hds : ∀ d ∈ ds, d.instruction.Decodable) (hes : ∀ e ∈ es, e.instruction.Decodable)
    (h : String.join (ds.map line) = String.join (es.map line)) :
    ds.map Decoded.instruction = es.map Decoded.instruction := by
  induction ds generalizing es with
  | nil =>
    cases es with
    | nil => rfl
    | cons e es =>
      have hlists := congrArg String.toList h
      rw [toList_join_lines] at hlists
      simp at hlists
  | cons d ds ih =>
    cases es with
    | nil =>
      have hlists := congrArg String.toList h
      rw [toList_join_lines] at hlists
      simp at hlists
    | cons e es =>
      have hlists := congrArg String.toList h
      rw [toList_join_lines, toList_join_lines] at hlists
      -- no text holds a line end, so the first one ends the first line
      obtain ⟨htext, hrest⟩ := append_cons_inj d.instruction.newline_not_mem_text
        e.instruction.newline_not_mem_text hlists
      have hd := (Instruction.decodable_iff_wellFormed _).1 (hds d (by simp))
      have he := (Instruction.decodable_iff_wellFormed _).1 (hes e (by simp))
      have htail := ih (fun d' hd' => hds d' (by simp [hd'])) (fun e' he' => hes e' (by simp [he']))
        (String.toList_inj.mp hrest)
      have hhead := Instruction.text_inj hd he (String.toList_inj.mp htext)
      rw [List.map_cons, List.map_cons, hhead, htail]

/-- The text of a listing depends on the instructions only. -/
theorem text_eq_of_instructions_eq {l l' : Listing}
    (h : l.instructions.map Decoded.instruction = l'.instructions.map Decoded.instruction) :
    l.text = l'.text := by
  have hline : ∀ ds : List Decoded,
      ds.map line = (ds.map Decoded.instruction).map fun i => i.text ++ "\n" := by
    intro ds
    rw [List.map_map]
    rfl
  rw [text, text, hline, hline, h]

end Listing

/-! ## Loaded programs -/

/-- A program that is one encoding has a listing of one instruction. -/
theorem Encodes.listing_of_load {bytes : List UInt8} {i : Instruction} {s s' : Simulator}
    {start : UInt16} (h : Encodes bytes i) (hload : s.load bytes start = .ok s') :
    s'.listing = ⟨[⟨start, bytes.length, i⟩], none⟩ := by
  have hlength := h.length_le
  rw [Simulator.load, Memory.load] at hload
  split at hload
  case isFalse => cases hload
  case isTrue hspace =>
    cases hload
    have hlt : start.toNat < start.toNat + bytes.length := by omega
    have hdecode : decode (s.memory.writeBytes start bytes) (UInt16.ofNat start.toNat)
        (start.toNat + bytes.length) = .ok ⟨start, bytes.length, i⟩ := by
      rw [decode_eq_ok_iff, UInt16.ofNat_toNat, Memory.readBytes_writeBytes _ _ (by omega)]
      exact ⟨rfl, Nat.le_min.mpr ⟨Nat.le_refl _, hspace⟩, h⟩
    rw [Simulator.listing]
    exact (Memory.listing_of_ok _ _ hlt hdecode).trans
      (by rw [Memory.listing_of_le _ _ (Nat.le_refl _)])

/-- Decodable instructions of the same text are equal, no text is empty or holds a line end, and
so the listings of two programs, where they succeed, are equal exactly when the programs have the
same instructions. -/
theorem listing_determines_instructions :
    (∀ i j : Instruction, i.Decodable → j.Decodable → i.text = j.text → i = j) ∧
      (∀ i : Instruction, i.text ≠ "" ∧ '\n' ∉ i.text.toList) ∧
      ∀ (s s' : Simulator) (t t' : String), s.listing.disassembly = .ok t →
        s'.listing.disassembly = .ok t' →
          (t = t' ↔ s.listing.instructions.map Decoded.instruction =
            s'.listing.instructions.map Decoded.instruction) := by
  refine ⟨?_, ?_, ?_⟩
  · intro i j hi hj h
    exact Instruction.text_inj ((Instruction.decodable_iff_wellFormed i).1 hi)
      ((Instruction.decodable_iff_wellFormed j).1 hj) h
  · intro i
    exact ⟨i.text_ne_empty, i.newline_not_mem_text⟩
  · intro s s' t t' ht ht'
    obtain ⟨-, rfl⟩ := (Listing.disassembly_eq_ok_iff _ _).1 ht
    obtain ⟨-, rfl⟩ := (Listing.disassembly_eq_ok_iff _ _).1 ht'
    constructor
    · intro h
      have hlines : String.join (s.listing.instructions.map Listing.line) =
          String.join (s'.listing.instructions.map Listing.line) := by
        simpa [Listing.text] using h
      exact Listing.instructions_eq_of_lines_eq (fun d hd => Memory.decodable_of_mem_listing hd)
        (fun d hd => Memory.decodable_of_mem_listing hd) hlines
    · exact Listing.text_eq_of_instructions_eq

/-- Moving 5 to `al` and moving 5 to `ax` have different texts, and programs of one of them each
have different listings. -/
theorem listing_determines_instructions_mov :
    let i := Instruction.pair .mov (.register .al) (.immediate (.ofByte 5))
    let j := Instruction.pair .mov (.register .ax) (.immediate (.ofWord 5))
    i.Decodable ∧ j.Decodable ∧ i.text ≠ j.text ∧
      ∃ s s' : Simulator,
        Simulator.load {} [0xB0, 0x05] 0 = .ok s ∧
          Simulator.load {} [0xB8, 0x05, 0x00] 256 = .ok s' ∧
          ∃ t t', s.listing.disassembly = .ok t ∧ s'.listing.disassembly = .ok t' ∧ t ≠ t' := by
  intro i j
  have hi : Encodes [0xB0, 0x05] i := .movImmediateToRegister .al (.byte 5)
  have hj : Encodes [0xB8, 0x05, 0x00] j := .movImmediateToRegister .ax (.word 5)
  have hload : Simulator.load {} [0xB0, 0x05] 0 = .ok _ := rfl
  have hload' : Simulator.load {} [0xB8, 0x05, 0x00] 256 = .ok _ := rfl
  have hlisting := hi.listing_of_load hload
  have hlisting' := hj.listing_of_load hload'
  have ht := (Listing.disassembly_eq_ok_iff _ _).2 ⟨congrArg Listing.failure hlisting, rfl⟩
  have ht' := (Listing.disassembly_eq_ok_iff _ _).2 ⟨congrArg Listing.failure hlisting', rfl⟩
  refine ⟨hi.decodable, hj.decodable, ?_, _, _, hload, hload', _, _, ht, ht', ?_⟩
  · intro h
    exact absurd (listing_determines_instructions.1 i j hi.decodable hj.decodable h) (by decide)
  · intro h
    have hsame := (listing_determines_instructions.2.2 _ _ _ _ ht ht').1 h
    rw [hlisting, hlisting'] at hsame
    exact absurd hsame (by decide)

end Machine8086
