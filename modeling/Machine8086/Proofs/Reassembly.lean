import Machine8086.Proofs.SingleEncoding
import Machine8086.Proofs.StraightLine

/-!
# What a listing tells about the bytes

A program can be listed exactly if it consists of encodings of instructions, one behind the other
(`EncodesAll`), and its listing is the text of these instructions
(`Simulator.disassembly_of_load_iff`). Since the text determines the instructions, programs with one
listing differ only in the encodings that were chosen for them (`listing_determines_encodings`):
among the programs of one assembler, and where no instruction leaves a choice of its encoding, the
listing determines the bytes. In general it does not, as most instructions have several encodings
and the text does not say which one it was (`sum_listed_alike`).
-/

namespace Machine8086

/-- The program consists of an encoding of each of the instructions, one behind the other. -/
def EncodesAll (program : List UInt8) (is : List Instruction) : Prop :=
  ∃ blocks, List.Forall₂ Encodes blocks is ∧ blocks.flatten = program

/-- The program is what `assemble` writes for some instructions, each of which it encodes. -/
def AssembledBy (assemble : Instruction → List UInt8) (program : List UInt8) : Prop :=
  ∃ is : List Instruction, (∀ i ∈ is, Encodes (assemble i) i) ∧ is.flatMap assemble = program

/-- The assembly text of instructions, as a listing has it. -/
def assemblyText (is : List Instruction) : String :=
  Listing.header ++ String.join (is.map fun i => i.text ++ "\n")

/-! ## Encodings of several instructions -/

namespace EncodesAll

theorem nil : EncodesAll [] [] :=
  ⟨[], .nil, rfl⟩

theorem cons {bytes rest : List UInt8} {i : Instruction} {is : List Instruction}
    (first : Encodes bytes i) (h : EncodesAll rest is) : EncodesAll (bytes ++ rest) (i :: is) := by
  obtain ⟨blocks, hblocks, rfl⟩ := h
  exact ⟨bytes :: blocks, .cons first hblocks, rfl⟩

theorem of_forall {assemble : Instruction → List UInt8} {is : List Instruction}
    (h : ∀ i ∈ is, Encodes (assemble i) i) : EncodesAll (is.flatMap assemble) is := by
  induction is with
  | nil => exact nil
  | cons i is ih => exact cons (h i (by simp)) (ih fun j hj => h j (by simp [hj]))

/-- Instructions with a single encoding make up one program only. -/
theorem unique {program program' : List UInt8} {is : List Instruction}
    (h : EncodesAll program is) (h' : EncodesAll program' is) (hone : ∀ i ∈ is, i.EncodedOnce) :
    program = program' := by
  obtain ⟨blocks, hblocks, rfl⟩ := h
  obtain ⟨blocks', hblocks', rfl⟩ := h'
  congr 1
  induction hblocks generalizing blocks' with
  | nil => exact (List.forall₂_nil_right_iff.1 hblocks').symm
  | @cons bytes i blocks is first rest ih =>
    obtain ⟨bytes', blocks', first', rest', rfl⟩ := List.forall₂_cons_right_iff.1 hblocks'
    rw [hone i (by simp) bytes bytes' first first',
      ih (fun j hj => hone j (by simp [hj])) blocks' rest']

end EncodesAll

/-! ## Listings of encodings -/

namespace Memory

variable {m : Memory} {stop position : Nat}

/-- Where encodings stand one behind the other, they are listed. -/
theorem listing_of_forall₂ {blocks : List (List UInt8)} {is : List Instruction}
    (h : List.Forall₂ Encodes blocks is)
    (hread : m.readBytes (UInt16.ofNat position) blocks.flatten.length = blocks.flatten)
    (hstop : position + blocks.flatten.length = stop) (hspace : stop ≤ addressSpace)
    (index : Nat) :
    (m.listing stop position index).failure = none ∧
      (m.listing stop position index).instructions.map Decoded.instruction = is := by
  induction h generalizing position index with
  | nil =>
    obtain rfl : position = stop := hstop
    rw [m.listing_of_le index (Nat.le_refl _)]
    exact ⟨rfl, rfl⟩
  | @cons bytes i blocks is first rest ih =>
    have hlength := first.length_le
    rw [List.flatten_cons, List.length_append] at hread hstop
    have htoNat : (UInt16.ofNat position).toNat = position :=
      UInt16.toNat_ofNat_of_lt' (Nat.lt_of_lt_of_le (by omega) hspace)
    have hfirst := readBytes_length_of_append hread
    have hdecode : decode m (UInt16.ofNat position) stop =
        .ok ⟨UInt16.ofNat position, bytes.length, i⟩ := by
      rw [decode_eq_ok_iff, htoNat]
      refine ⟨rfl, Nat.le_min.mpr ?_, hfirst.symm ▸ first⟩
      dsimp only
      omega
    -- what is left of the bytes stands behind the first encoding
    rw [readBytes_add, hfirst, ← UInt16.ofNat_add] at hread
    obtain ⟨hfailure, hinstructions⟩ := ih (List.append_cancel_left hread) (by omega) (index + 1)
    rw [m.listing_of_ok index (by omega) hdecode]
    exact ⟨hfailure, congrArg (i :: ·) hinstructions⟩

/-- What a successful listing lists are encodings, one behind the other. -/
theorem encodesAll_of_listing (hspace : stop ≤ addressSpace) (index : Nat) :
    (m.listing stop position index).failure = none → position ≤ stop →
      EncodesAll (m.readBytes (UInt16.ofNat position) (stop - position))
        ((m.listing stop position index).instructions.map Decoded.instruction) := by
  refine m.listing_induction (motive := fun position _ l => l.failure = none → position ≤ stop →
    EncodesAll (m.readBytes (UInt16.ofNat position) (stop - position))
      (l.instructions.map Decoded.instruction)) index ?_ ?_ ?_
  · intro position index hposition hfailure hle
    rw [Nat.sub_eq_zero_of_le hposition]
    exact .nil
  · intro position index e hposition hdecode hfailure
    cases hfailure
  · intro position index d rest hposition hdecode ih hfailure hle
    obtain ⟨-, hend, hencodes⟩ := (decode_eq_ok_iff ..).1 hdecode
    rw [UInt16.toNat_ofNat_of_lt' (Nat.lt_of_lt_of_le hposition hspace)] at hend
    have hcount : stop - position = d.size + (stop - (position + d.size)) := by omega
    rw [hcount, readBytes_add, ← UInt16.ofNat_add]
    exact .cons hencodes (ih hfailure (by omega))

end Memory

namespace Listing

theorem text_eq_assemblyText (listing : Listing) :
    listing.text = assemblyText (listing.instructions.map Decoded.instruction) := by
  rw [text, assemblyText, List.map_map]
  rfl

end Listing

namespace Simulator

theorem readBytes_of_load {s t : Simulator} {program : List UInt8} {start : UInt16}
    (h : s.load program start = .ok t) : t.memory.readBytes start program.length = program := by
  obtain ⟨hspace, rfl⟩ := (load_eq_ok_iff ..).1 h
  exact Memory.readBytes_writeBytes _ _ (by omega)

/-- Which instructions a loaded program is listed as. -/
theorem encodesAll_iff_of_load {s t : Simulator} {program : List UInt8} {start : UInt16}
    (h : s.load program start = .ok t) (is : List Instruction) :
    EncodesAll program is ↔ t.listing.failure = none ∧
      t.listing.instructions.map Decoded.instruction = is := by
  have hread := readBytes_of_load h
  obtain ⟨hspace, rfl⟩ := (load_eq_ok_iff ..).1 h
  constructor
  · rintro ⟨blocks, hblocks, rfl⟩
    apply Memory.listing_of_forall₂ hblocks
    · rw [UInt16.ofNat_toNat]
      exact hread
    · rfl
    · exact hspace
  · rintro ⟨hfailure, rfl⟩
    have hall := Memory.encodesAll_of_listing hspace 0 hfailure (Nat.le_add_right _ _)
    rwa [UInt16.ofNat_toNat, Nat.add_sub_cancel_left, hread] at hall

/-- A loaded program can be disassembled exactly if it consists of encodings of instructions, and
the text is theirs. -/
theorem disassembly_of_load_iff {s t : Simulator} {program : List UInt8} {start : UInt16}
    (h : s.load program start = .ok t) (text : String) :
    t.listing.disassembly = .ok text ↔ ∃ is, EncodesAll program is ∧ assemblyText is = text := by
  rw [Listing.disassembly_eq_ok_iff, Listing.text_eq_assemblyText]
  constructor
  · rintro ⟨hfailure, htext⟩
    exact ⟨_, (encodesAll_iff_of_load h _).2 ⟨hfailure, rfl⟩, htext⟩
  · rintro ⟨is, hall, htext⟩
    obtain ⟨hfailure, rfl⟩ := (encodesAll_iff_of_load h is).1 hall
    exact ⟨hfailure, htext⟩

end Simulator

/-! ## The listing and the bytes -/

/-- `add cx, 8`. -/
def addEight : Instruction := .pair .add (.register .cx) (.immediate (.ofWord 8))

theorem encodes_addEight_extended : Encodes [0x83, 0xC1, 0x08] addEight :=
  @Encodes.arithmeticImmediate .add 0 rfl _ _ _ _ _ _ _ _ (.register .cx) (.extended 8)

theorem encodes_addEight_word : Encodes [0x81, 0xC1, 0x08, 0x00] addEight :=
  @Encodes.arithmeticImmediate .add 0 rfl _ _ _ _ _ _ _ _ (.register .cx) (.word 8)

/-- Programs of one listing consist of encodings of the same instructions, and all programs that do
have one listing. So a listing determines the bytes up to the encodings that were chosen: for the
programs that one assembler writes, the bytes are the same; and they are where no instruction leaves
a choice of its encoding. -/
theorem listing_determines_encodings {s s' t t' : Simulator} {program program' : List UInt8}
    {start start' : UInt16} {text text' : String} (hload : s.load program start = .ok t)
    (hload' : s'.load program' start' = .ok t') (htext : t.listing.disassembly = .ok text)
    (htext' : t'.listing.disassembly = .ok text') :
    (text = text' ↔ ∃ is, EncodesAll program is ∧ EncodesAll program' is) ∧
      (∀ assemble, AssembledBy assemble program → AssembledBy assemble program' →
        text = text' → program = program') ∧
      ((∀ d ∈ t.listing.instructions, d.instruction.LeavesNoChoice) →
        text = text' → program = program') := by
  obtain ⟨hfailure, rfl⟩ := (Listing.disassembly_eq_ok_iff ..).1 htext
  obtain ⟨hfailure', rfl⟩ := (Listing.disassembly_eq_ok_iff ..).1 htext'
  have hsame : t.listing.text = t'.listing.text ↔
      ∃ is, EncodesAll program is ∧ EncodesAll program' is := by
    constructor
    · intro h
      have hlines := (String.append_right_inj _).1 h
      have hinstructions := Listing.instructions_eq_of_lines_eq
        (fun d hd => Memory.decodable_of_mem_listing hd)
        (fun d hd => Memory.decodable_of_mem_listing hd) hlines
      exact ⟨_, (Simulator.encodesAll_iff_of_load hload _).2 ⟨hfailure, hinstructions⟩,
        (Simulator.encodesAll_iff_of_load hload' _).2 ⟨hfailure', rfl⟩⟩
    · rintro ⟨is, hall, hall'⟩
      obtain ⟨-, his⟩ := (Simulator.encodesAll_iff_of_load hload is).1 hall
      obtain ⟨-, his'⟩ := (Simulator.encodesAll_iff_of_load hload' is).1 hall'
      exact Listing.text_eq_of_instructions_eq (his.trans his'.symm)
  refine ⟨hsame, ?_, ?_⟩
  · rintro assemble ⟨is, his, rfl⟩ ⟨is', his', rfl⟩ h
    obtain ⟨js, hjs, hjs'⟩ := hsame.1 h
    -- both programs are listed as what they were assembled from
    obtain ⟨-, rfl⟩ := (Simulator.encodesAll_iff_of_load hload _).1 (.of_forall his)
    obtain ⟨-, rfl⟩ := (Simulator.encodesAll_iff_of_load hload' _).1 (.of_forall his')
    obtain ⟨-, hjs⟩ := (Simulator.encodesAll_iff_of_load hload js).1 hjs
    obtain ⟨-, hjs'⟩ := (Simulator.encodesAll_iff_of_load hload' js).1 hjs'
    rw [hjs, hjs']
  · intro hchoice h
    obtain ⟨is, hall, hall'⟩ := hsame.1 h
    obtain ⟨-, rfl⟩ := (Simulator.encodesAll_iff_of_load hload is).1 hall
    have hone : ∀ d ∈ t.listing.instructions, d.instruction.EncodedOnce :=
      fun d hd => (hchoice d hd).encodedOnce
    exact hall.unique hall' (by simpa using hone)

/-- `add cx, 8` with an immediate of one byte, which is extended, and of two bytes: the programs
have one listing, and no assembler writes both. -/
theorem listing_determines_encodings_sum :
    ∃ t t' : Simulator, Simulator.load {} [0x83, 0xC1, 0x08] 0 = .ok t ∧
      Simulator.load {} [0x81, 0xC1, 0x08, 0x00] 0 = .ok t' ∧
      ∃ text, t.listing.disassembly = .ok text ∧ t'.listing.disassembly = .ok text ∧
        ∀ assemble, AssembledBy assemble [0x83, 0xC1, 0x08] →
          ¬ AssembledBy assemble [0x81, 0xC1, 0x08, 0x00] := by
  obtain ⟨t, hload⟩ : ∃ t, Simulator.load {} [0x83, 0xC1, 0x08] 0 = .ok t := ⟨_, rfl⟩
  obtain ⟨t', hload'⟩ : ∃ t, Simulator.load {} [0x81, 0xC1, 0x08, 0x00] 0 = .ok t := ⟨_, rfl⟩
  have hshort : EncodesAll [0x83, 0xC1, 0x08] [addEight] := .cons encodes_addEight_extended .nil
  have hlong : EncodesAll [0x81, 0xC1, 0x08, 0x00] [addEight] := .cons encodes_addEight_word .nil
  have htext := (Simulator.disassembly_of_load_iff hload _).2 ⟨_, hshort, rfl⟩
  have htext' := (Simulator.disassembly_of_load_iff hload' _).2 ⟨_, hlong, rfl⟩
  obtain ⟨hsame, hassembled, -⟩ := listing_determines_encodings hload hload' htext htext'
  refine ⟨t, t', hload, hload', _, htext, htext', ?_⟩
  intro assemble h h'
  have hequal := hassembled assemble h h' (hsame.2 ⟨_, hshort, hlong⟩)
  exact absurd hequal (by decide)

/-- A listing does not determine the bytes. -/
theorem sum_listed_alike :
    ¬ ∀ (s s' t t' : Simulator) (program program' : List UInt8) (start : UInt16) (text : String),
      s.load program start = .ok t → s'.load program' start = .ok t' →
        t.listing.disassembly = .ok text → t'.listing.disassembly = .ok text →
          program = program' := by
  intro h
  obtain ⟨t, hload⟩ : ∃ t, Simulator.load {} [0x83, 0xC1, 0x08] 0 = .ok t := ⟨_, rfl⟩
  obtain ⟨t', hload'⟩ : ∃ t, Simulator.load {} [0x81, 0xC1, 0x08, 0x00] 0 = .ok t := ⟨_, rfl⟩
  have htext := (Simulator.disassembly_of_load_iff hload _).2
    ⟨_, .cons encodes_addEight_extended .nil, rfl⟩
  have htext' := (Simulator.disassembly_of_load_iff hload' _).2
    ⟨_, .cons encodes_addEight_word .nil, rfl⟩
  exact absurd (h _ _ _ _ _ _ _ _ hload hload' htext htext') (by decide)

end Machine8086
