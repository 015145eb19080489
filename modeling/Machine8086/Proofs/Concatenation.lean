import Machine8086.Proofs.StraightLine

/-!
# Listings of programs one behind the other

A program that stands behind another one is listed behind it. More bytes behind the first program
change nothing in its listing, which ends where the second one begins
(`Memory.listing_of_longer`); and how many instructions stand before a listing shows only in the
index of its failure (`Memory.listing_add_index`). So the listing of both programs is the listing of
the first, continued by that of the second (`Simulator.listing_append_of_load`,
`listing_of_append`).
-/

namespace Machine8086

namespace Listing

/-- A listing that is continued by another one. -/
def append (first second : Listing) : Listing where
  instructions := first.instructions ++ second.instructions
  failure := second.failure.map fun e => { e with index := first.instructions.length + e.index }

theorem text_append (first second : Listing) :
    (first.append second).text = first.text ++ String.join (second.instructions.map line) := by
  rw [text, text, append, List.map_append, String.join_append, String.append_assoc]

theorem failure_append_eq_none_iff (first second : Listing) :
    (first.append second).failure = none ↔ second.failure = none :=
  Option.map_eq_none_iff

theorem disassembly_eq_error_iff (listing : Listing) (e : ListingError) :
    listing.disassembly = .error e ↔ listing.failure = some e := by
  rw [disassembly]
  cases listing.failure with
  | none => simp
  | some e => simp

end Listing

/-! ## Listings in one memory -/

namespace Memory

variable (m : Memory) {stop stop' position : Nat}

/-- The number of instructions before a listing counts for the index of its failure only. -/
theorem listing_add_index (count index : Nat) :
    m.listing stop position (count + index) =
      let listing := m.listing stop position index
      { listing with
        failure := listing.failure.map fun e => { e with index := count + e.index } } := by
  refine m.listing_induction (motive := fun position index l =>
    m.listing stop position (count + index) =
      { l with failure := l.failure.map fun e => { e with index := count + e.index } })
    index ?_ ?_ ?_
  · intro position index hposition
    exact m.listing_of_le _ hposition
  · intro position index e hposition hdecode
    exact m.listing_of_error _ hposition hdecode
  · intro position index d rest hposition hdecode ih
    rw [m.listing_of_ok _ hposition hdecode, Nat.add_assoc, ih]

/-- A listing that succeeds is the beginning of every longer one, which goes on at its end. -/
theorem listing_of_longer (hstop : stop ≤ stop') (hspace : stop' ≤ addressSpace) (index : Nat) :
    (m.listing stop position index).failure = none → position ≤ stop →
      m.listing stop' position index =
        let first := (m.listing stop position index).instructions
        let rest := m.listing stop' stop (index + first.length)
        { rest with instructions := first ++ rest.instructions } := by
  refine m.listing_induction (motive := fun position index l => l.failure = none →
    position ≤ stop → m.listing stop' position index =
      let rest := m.listing stop' stop (index + l.instructions.length)
      { rest with instructions := l.instructions ++ rest.instructions }) index ?_ ?_ ?_
  · intro position index hposition hfailure hle
    obtain rfl : position = stop := Nat.le_antisymm hle hposition
    rfl
  · intro position index e hposition hdecode hfailure
    cases hfailure
  · intro position index d rest hposition hdecode ih hfailure hle
    have htoNat : (UInt16.ofNat position).toNat = position :=
      UInt16.toNat_ofNat_of_lt' (Nat.lt_of_lt_of_le hposition (Nat.le_trans hstop hspace))
    have hend := decode_end_le hdecode
    rw [htoNat] at hend
    -- what ends in time for the first program ends in time for both
    have hlonger := decode_mono hdecode (Nat.le_trans (Nat.min_le_left stop addressSpace) hstop)
    rw [m.listing_of_ok index (Nat.lt_of_lt_of_le hposition hstop) hlonger,
      ih hfailure (Nat.le_trans hend (Nat.min_le_left stop addressSpace)), List.length_cons,
      Nat.add_assoc, Nat.add_comm 1]
    rfl

end Memory

/-! ## Loaded programs -/

namespace Simulator

/-- The listing of a loaded program goes from its start to its end. -/
theorem listing_of_load {s t : Simulator} {program : List UInt8} {start : UInt16}
    (h : s.load program start = .ok t) :
    start.toNat + program.length ≤ addressSpace ∧
      t.listing = t.memory.listing (start.toNat + program.length) start.toNat 0 := by
  obtain ⟨hspace, rfl⟩ := (load_eq_ok_iff ..).1 h
  exact ⟨hspace, rfl⟩

/-- The first of two programs is listed alike without the second. -/
theorem listing_of_load_left {s s₁ t t₁ : Simulator} {first second : List UInt8} {start : UInt16}
    (hload : s.load (first ++ second) start = .ok t) (hload₁ : s₁.load first start = .ok t₁) :
    t₁.listing = t.memory.listing (start.toNat + first.length) start.toNat 0 := by
  have hread : ∀ a : UInt16, start.toNat ≤ a.toNat → a.toNat < start.toNat + first.length →
      t₁.memory.read a = t.memory.read a := by
    intro a hstart hend
    have hboth : a.toNat < start.toNat + (first ++ second).length := by
      rw [List.length_append]
      omega
    rw [← Option.some.injEq, ← getElem?_of_load hload₁ hstart hend,
      ← getElem?_of_load hload hstart hboth, List.getElem?_append_left (by omega)]
  obtain ⟨hspace, hlisting⟩ := listing_of_load hload₁
  rw [hlisting]
  exact Memory.listing_congr _ 0 hspace hread

/-- The second of two programs is listed alike without the first, if it is loaded to the same place;
an empty program may be loaded anywhere. -/
theorem listing_of_load_right {s s₂ t t₂ : Simulator} {first second : List UInt8}
    {start start₂ : UInt16} (hload : s.load (first ++ second) start = .ok t)
    (hload₂ : s₂.load second start₂ = .ok t₂)
    (hseam : second ≠ [] → start₂.toNat = start.toNat + first.length) :
    t₂.listing = t.memory.listing (start.toNat + first.length + second.length)
      (start.toNat + first.length) 0 := by
  have hread : ∀ a : UInt16, start₂.toNat ≤ a.toNat → a.toNat < start₂.toNat + second.length →
      t₂.memory.read a = t.memory.read a := by
    intro a hstart hend
    have hplace := hseam (List.ne_nil_of_length_pos (by omega))
    have hboth : a.toNat < start.toNat + (first ++ second).length := by
      rw [List.length_append]
      omega
    rw [← Option.some.injEq, ← getElem?_of_load hload₂ hstart hend,
      ← getElem?_of_load hload (by omega) hboth, List.getElem?_append_right (by omega), Nat.sub_sub,
      hplace]
  obtain ⟨hspace, hlisting⟩ := listing_of_load hload₂
  rw [hlisting]
  by_cases hempty : second = []
  · subst hempty
    exact (Memory.listing_of_le _ 0 (Nat.le_refl _)).trans
      (Memory.listing_of_le _ 0 (Nat.le_refl _)).symm
  · rw [← hseam hempty]
    exact Memory.listing_congr _ 0 hspace hread

/-- The listing of a program and another one behind it is the listing of the first, continued by
that of the second. -/
theorem listing_append_of_load {s s₁ s₂ t t₁ t₂ : Simulator} {first second : List UInt8}
    {start start₂ : UInt16} (hload : s.load (first ++ second) start = .ok t)
    (hload₁ : s₁.load first start = .ok t₁) (hload₂ : s₂.load second start₂ = .ok t₂)
    (hseam : second ≠ [] → start₂.toNat = start.toNat + first.length)
    (hfailure : t₁.listing.failure = none) : t.listing = t₁.listing.append t₂.listing := by
  have hleft := listing_of_load_left hload hload₁
  have hright := listing_of_load_right hload hload₂ hseam
  obtain ⟨hspace, hlisting⟩ := listing_of_load hload
  rw [List.length_append, ← Nat.add_assoc] at hspace hlisting
  have hlonger := t.memory.listing_of_longer (Nat.le_add_right _ second.length) hspace 0
    (hleft ▸ hfailure) (Nat.le_add_right start.toNat first.length)
  dsimp only at hlonger
  rw [← hleft, Nat.add_comm 0, Memory.listing_add_index, ← hright] at hlonger
  exact hlisting.trans hlonger

end Simulator

/-- A program that can be listed, with another one behind it. Both fit into memory, and the second
alone is loaded to where it stands behind the first; if it is empty, it may be loaded anywhere.
Together they can be listed exactly if the second alone can. Their listing is then the header, the
lines of the first and the lines of the second, of as many instructions as both have; and if the
second cannot be listed, the failure is the same, with its index counted from the first program
on. -/
theorem listing_of_append (s s₂ : Simulator) {s₁ t₁ : Simulator} {first : List UInt8}
    (second : List UInt8) {start : UInt16} (start₂ : UInt16) {n : Nat}
    (hspace : start.toNat + first.length + second.length ≤ addressSpace)
    (hseam : second ≠ [] → start₂.toNat = start.toNat + first.length)
    (hload₁ : s₁.load first start = .ok t₁) (hcount : t₁.listing.count = .ok n) :
    ∃ t t₂, s.load (first ++ second) start = .ok t ∧ s₂.load second start₂ = .ok t₂ ∧
      ((∃ text, t.listing.disassembly = .ok text) ↔ ∃ text, t₂.listing.disassembly = .ok text) ∧
      (∀ lines₁ lines₂, t₁.listing.disassembly = .ok (Listing.header ++ lines₁) →
        t₂.listing.disassembly = .ok (Listing.header ++ lines₂) →
          t.listing.disassembly = .ok (Listing.header ++ lines₁ ++ lines₂)) ∧
      (∀ n₂, t₂.listing.count = .ok n₂ → t.listing.count = .ok (n + n₂)) ∧
      ∀ index address source, t₂.listing.disassembly = .error ⟨index, address, source⟩ →
        t.listing.disassembly = .error ⟨n + index, address, source⟩ := by
  obtain ⟨hfailure, rfl⟩ := (Listing.count_eq_ok_iff ..).1 hcount
  obtain ⟨t, hload⟩ : ∃ t, s.load (first ++ second) start = .ok t :=
    ⟨_, (Simulator.load_eq_ok_iff ..).2 ⟨by rw [List.length_append]; omega, rfl⟩⟩
  obtain ⟨t₂, hload₂⟩ : ∃ t₂, s₂.load second start₂ = .ok t₂ := by
    refine ⟨_, (Simulator.load_eq_ok_iff ..).2 ⟨?_, rfl⟩⟩
    by_cases hempty : second = []
    · rw [hempty]
      exact Nat.le_of_lt (toNat_lt_addressSpace start₂)
    · rw [hseam hempty]
      exact hspace
  refine ⟨t, t₂, hload, hload₂, ?_⟩
  rw [Simulator.listing_append_of_load hload hload₁ hload₂ hseam hfailure]
  refine ⟨?_, ?_, ?_, ?_⟩
  · simp [Listing.disassembly_eq_ok_iff, Listing.failure_append_eq_none_iff]
  · intro lines₁ lines₂ hlines₁ hlines₂
    obtain ⟨-, htext₁⟩ := (Listing.disassembly_eq_ok_iff ..).1 hlines₁
    obtain ⟨hfailure₂, htext₂⟩ := (Listing.disassembly_eq_ok_iff ..).1 hlines₂
    rw [Listing.text, String.append_right_inj] at htext₂
    rw [Listing.disassembly_eq_ok_iff, Listing.failure_append_eq_none_iff, Listing.text_append,
      htext₁, htext₂]
    exact ⟨hfailure₂, rfl⟩
  · intro n₂ hcount₂
    obtain ⟨hfailure₂, rfl⟩ := (Listing.count_eq_ok_iff ..).1 hcount₂
    rw [Listing.count_eq_ok_iff, Listing.failure_append_eq_none_iff]
    exact ⟨hfailure₂, List.length_append⟩
  · intro index address source herror
    rw [Listing.disassembly_eq_error_iff] at herror ⊢
    rw [Listing.append, herror]
    rfl

/-- Behind `mov al, 5`, `mov al, 6` in the last two bytes of memory is listed as its second line,
and a byte that starts no instruction is the failure at index 1. -/
theorem listing_of_append_top :
    ∃ t₁ : Simulator, Simulator.load {} [0xB0, 0x05] 0xFFFC = .ok t₁ ∧
      t₁.listing.count = .ok 1 ∧
      (∃ t : Simulator, Simulator.load {} ([0xB0, 0x05] ++ [0xB0, 0x06]) 0xFFFC = .ok t ∧
        t.listing.count = .ok 2 ∧
        t.listing.disassembly = .ok (Listing.header ++ "mov al, 5\n" ++ "mov al, 6\n")) ∧
      ∃ t : Simulator, Simulator.load {} ([0xB0, 0x05] ++ [0x90]) 0xFFFC = .ok t ∧
        t.listing.disassembly = .error ⟨1, 0xFFFE, .unknownOpcode 0x90 0xFFFE⟩ := by
  have hmov : ∀ value, Encodes [0xB0, value]
      (.pair .mov (.register .al) (.immediate (.ofByte value))) := fun value =>
    .movImmediateToRegister .al (.byte value)
  obtain ⟨t₁, hload₁⟩ : ∃ t₁, Simulator.load {} [0xB0, 0x05] 0xFFFC = .ok t₁ := ⟨_, rfl⟩
  have hlisting₁ := (hmov 5).listing_of_load hload₁
  have hcount₁ : t₁.listing.count = .ok 1 := by
    rw [hlisting₁]
    rfl
  have hlines₁ : t₁.listing.disassembly = .ok (Listing.header ++ "mov al, 5\n") := by
    rw [hlisting₁]
    decide +kernel
  refine ⟨t₁, hload₁, hcount₁, ?_, ?_⟩
  · obtain ⟨t, t₂, hload, hload₂, -, hlines, hcount, -⟩ :=
      listing_of_append {} {} [0xB0, 0x06] 0xFFFE (by decide) (fun _ => by decide) hload₁ hcount₁
    have hlisting₂ := (hmov 6).listing_of_load hload₂
    refine ⟨t, hload, hcount 1 ?_, hlines _ _ hlines₁ ?_⟩
    · rw [hlisting₂]
      rfl
    · rw [hlisting₂]
      decide +kernel
  · obtain ⟨t, t₂, hload, hload₂, -, -, -, herror⟩ :=
      listing_of_append {} {} [0x90] 0xFFFE (by decide) (fun _ => by decide) hload₁ hcount₁
    obtain ⟨-, hlisting₂⟩ := Simulator.listing_of_load hload₂
    have hread : t₂.memory.read 0xFFFE = 0x90 := by
      have hbyte := @Simulator.getElem?_of_load _ _ _ _ 0xFFFE hload₂ (Nat.le_refl _) (by decide)
      exact (Option.some.inj hbyte).symm
    have hdecode : decode t₂.memory 0xFFFE 0xFFFF = .error (.unknownOpcode 0x90 0xFFFE) := by
      rw [decode, hread]
      rfl
    refine ⟨t, hload, herror 0 _ _ ?_⟩
    rw [Listing.disassembly_eq_error_iff, hlisting₂]
    exact congrArg Listing.failure (Memory.listing_of_error _ 0 (by decide) hdecode)

end Machine8086
