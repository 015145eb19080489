import Machine8086.Proofs.Simulator
import Machine8086.Proofs.Listing
import Machine8086.Proofs.DecodeErrors
import Machine8086.Session

/-!
# Listings tile the program

The instructions of a listing lie one behind the other (`Memory.Tiles`), each of two to six bytes,
from the start of the program on. A listing that succeeds ends at the end of the program, so that
each byte of the program belongs to exactly one instruction (`Memory.Tiles.existsUnique`); one that
fails ends at the first place that does not decode (`Memory.listing_tiles`). What is written is the
header and one line for each of them (`listing_partitions_program`).
-/

namespace Machine8086

/-- The byte at a position is one of the bytes of the instruction. -/
def Decoded.Covers (d : Decoded) (position : Nat) : Prop :=
  d.address.toNat ≤ position ∧ position < d.address.toNat + d.size

/-! ## Tilings -/

namespace Memory

/-- Instructions before `stop` that are decoded one behind the other, from the first position up to
the last. -/
inductive Tiles (m : Memory) (stop : Nat) : Nat → List Decoded → Nat → Prop
  | nil (position : Nat) : Tiles m stop position [] position
  | cons {position final : Nat} {d : Decoded} {ds : List Decoded} (hposition : position < stop)
      (hdecode : decode m (UInt16.ofNat position) stop = .ok d)
      (rest : Tiles m stop (position + d.size) ds final) :
      Tiles m stop position (d :: ds) final

/-- A listing is a tiling. It reaches the end, or stops where nothing can be decoded. -/
theorem listing_tiles (m : Memory) (stop position index : Nat) :
    ∃ final, m.Tiles stop position (m.listing stop position index).instructions final ∧
      ((m.listing stop position index).failure = none ∧ stop ≤ final ∨
        final < stop ∧ ∃ source, decode m (UInt16.ofNat final) stop = .error source ∧
          (m.listing stop position index).failure =
            some ⟨index + (m.listing stop position index).instructions.length, UInt16.ofNat final,
              source⟩) := by
  refine m.listing_induction (motive := fun position index l =>
    ∃ final, m.Tiles stop position l.instructions final ∧ (l.failure = none ∧ stop ≤ final ∨
      final < stop ∧ ∃ source, decode m (UInt16.ofNat final) stop = .error source ∧
        l.failure = some ⟨index + l.instructions.length, UInt16.ofNat final, source⟩))
    index ?_ ?_ ?_
  · intro position index hposition
    exact ⟨position, .nil position, .inl ⟨rfl, hposition⟩⟩
  · intro position index e hposition hdecode
    exact ⟨position, .nil position, .inr ⟨hposition, e, hdecode, rfl⟩⟩
  · intro position index d rest hposition hdecode ih
    obtain ⟨final, htiles, hend⟩ := ih
    refine ⟨final, .cons hposition hdecode htiles, ?_⟩
    rw [List.length_cons, Nat.add_comm rest.instructions.length, ← Nat.add_assoc]
    exact hend

namespace Tiles

variable {m : Memory} {stop position final : Nat} {ds : List Decoded}

theorem final_eq (h : m.Tiles stop position ds final) :
    final = position + (ds.map Decoded.size).sum := by
  induction h with
  | nil position => simp
  | cons hposition hdecode rest ih => rw [ih, List.map_cons, List.sum_cons, Nat.add_assoc]

/-- Where a tiled instruction lies, as long as there are addresses. -/
theorem address_eq (hspace : stop ≤ addressSpace) {d : Decoded} (hposition : position < stop)
    (hdecode : decode m (UInt16.ofNat position) stop = .ok d) : d.address.toNat = position := by
  rw [(decode_eq_ok hdecode).1]
  exact UInt16.toNat_ofNat_of_lt' (Nat.lt_of_lt_of_le hposition hspace)

/-- No tiled instruction goes past the end. -/
theorem final_le (h : m.Tiles stop position ds final) (hspace : stop ≤ addressSpace)
    (hstart : position ≤ stop) : final ≤ stop := by
  induction h with
  | nil position => exact hstart
  | cons hposition hdecode rest ih =>
    apply ih
    have hend := decode_end_le hdecode
    rw [← (decode_eq_ok hdecode).1, address_eq hspace hposition hdecode] at hend
    exact Nat.le_trans hend (Nat.min_le_left _ _)

/-- Each tiled instruction is decoded behind those before it. -/
theorem decode_of_getElem? (h : m.Tiles stop position ds final) (hspace : stop ≤ addressSpace)
    {k : Nat} {d : Decoded} (hd : ds[k]? = some d) :
    d.address.toNat = position + ((ds.take k).map Decoded.size).sum ∧
      decode m d.address stop = .ok d := by
  induction h generalizing k with
  | nil position => simp at hd
  | @cons position final first ds hposition hdecode rest ih =>
    cases k with
    | zero =>
      obtain rfl : first = d := by simpa using hd
      rw [address_eq hspace hposition hdecode, (decode_eq_ok hdecode).1]
      exact ⟨rfl, hdecode⟩
    | succ k =>
      obtain ⟨haddress, hdecoded⟩ := ih (by simpa using hd)
      rw [haddress, List.take_succ_cons, List.map_cons, List.sum_cons, Nat.add_assoc]
      exact ⟨rfl, hdecoded⟩

/-- Each position of a tiling lies in exactly one of its instructions. -/
theorem existsUnique (h : m.Tiles stop position ds final) (hspace : stop ≤ addressSpace) {a : Nat}
    (hfirst : position ≤ a) (hlast : a < final) :
    ∃! k : Nat, ∃ d, ds[k]? = some d ∧ d.Covers a := by
  induction h with
  | nil position => omega
  | @cons position final d ds hposition hdecode rest ih =>
    have haddress := address_eq hspace hposition hdecode
    by_cases hd : a < position + d.size
    · refine ⟨0, ⟨d, rfl, Nat.le_trans (Nat.le_of_eq haddress) hfirst, haddress ▸ hd⟩, ?_⟩
      rintro k ⟨other, hother, hle, -⟩
      cases k with
      | zero => rfl
      | succ k =>
        -- what comes later lies behind the first instruction
        have hlater : ds[k]? = some other := by simpa using hother
        obtain ⟨hbehind, -⟩ := rest.decode_of_getElem? hspace hlater
        omega
    · obtain ⟨k, ⟨other, hother, hle, hlt⟩, hunique⟩ := ih (by omega) hlast
      refine ⟨k + 1, ⟨other, by simpa using hother, hle, hlt⟩, ?_⟩
      rintro l ⟨another, hanother, hle', hlt'⟩
      cases l with
      | zero =>
        obtain rfl : d = another := by simpa using hanother
        omega
      | succ l =>
        rw [hunique l ⟨another, by simpa using hanother, hle', hlt'⟩]

end Tiles

end Memory

/-! ## Written listings -/

/-- The extent of the program lies in memory. -/
structure Simulator.ExtentInMemory (s : Simulator) : Prop where
  start_le : s.programStart.toNat ≤ s.programEnd
  end_le : s.programEnd ≤ addressSpace

theorem Simulator.extentInMemory_of_load {s t : Simulator} {program : List UInt8} {start : UInt16}
    (h : s.load program start = .ok t) : t.ExtentInMemory := by
  obtain ⟨hspace, rfl⟩ := (load_eq_ok_iff ..).1 h
  exact ⟨Nat.le_add_right _ _, hspace⟩

/-- A writer without a limit receives the whole text. -/
theorem Session.disassembleTo_none (session : Session) :
    (session.perform (.disassembleTo none)).1 =
      .written ⟨session.simulator.listing.text,
        session.simulator.listing.count.mapError .listing⟩ := by
  rw [perform]
  simp [Listing.writeTo]

/-- The listing of a loaded program divides it into instructions. Writing it to a writer without a
limit gives the header and one line for each of a sequence of instructions of two to six bytes, each
decoded at the start of the program plus the sizes of those before it. Either the listing succeeds
with their number; then their sizes add up to the size of the program, and every position of the
program lies in exactly one of them. Or it fails; then the error gives their number as its index,
the place behind them as its address, and the error of decoding there. -/
theorem listing_partitions_program :
    (∀ (s t : Simulator) (program : List UInt8) (start : UInt16),
        s.load program start = .ok t → t.ExtentInMemory) ∧
      ∀ session : Session, session.simulator.ExtentInMemory →
        let s := session.simulator
        ∃ (written : WrittenListing) (ds : List Decoded),
          (session.perform (.disassembleTo none)).1 = .written written ∧
          written.text =
            "bits 16\n\n" ++ String.join (ds.map fun d => d.instruction.text ++ "\n") ∧
          (∀ k d, ds[k]? = some d →
            d.address.toNat = s.programStart.toNat + ((ds.take k).map Decoded.size).sum ∧
              decode s.memory d.address s.programEnd = .ok d ∧ 2 ≤ d.size ∧ d.size ≤ 6) ∧
          (written.result = .ok ds.length ∧
              (ds.map Decoded.size).sum = s.programEnd - s.programStart.toNat ∧
              (∀ a, s.programStart.toNat ≤ a → a < s.programEnd →
                ∃! k : Nat, ∃ d, ds[k]? = some d ∧ d.Covers a) ∨
            ∃ address source, written.result = .error (.listing ⟨ds.length, address, source⟩) ∧
              address.toNat = s.programStart.toNat + (ds.map Decoded.size).sum ∧
              decode s.memory address s.programEnd = .error source) := by
  refine ⟨fun s t program start => Simulator.extentInMemory_of_load, fun session hextent => ?_⟩
  intro s
  obtain ⟨hstart, hspace⟩ := hextent
  obtain ⟨final, htiles, hend⟩ : ∃ final,
      s.memory.Tiles s.programEnd s.programStart.toNat s.listing.instructions final ∧ _ :=
    s.memory.listing_tiles s.programEnd s.programStart.toNat 0
  have hfinal := htiles.final_eq
  refine ⟨_, s.listing.instructions, session.disassembleTo_none, rfl, ?_, ?_⟩
  · intro k d hd
    obtain ⟨haddress, hdecode⟩ := htiles.decode_of_getElem? hspace hd
    exact ⟨haddress, hdecode, decode_size_bounds hdecode⟩
  · rcases hend with ⟨hfailure, hle⟩ | ⟨hlt, source, hdecode, hfailure⟩
    · obtain rfl : final = s.programEnd := Nat.le_antisymm (htiles.final_le hspace hstart) hle
      refine .inl ⟨?_, by omega, fun a => htiles.existsUnique hspace⟩
      rw [Listing.count, Simulator.listing, hfailure]
      rfl
    · refine .inr ⟨UInt16.ofNat final, source, ?_, ?_, hdecode⟩
      · rw [Listing.count, Simulator.listing, hfailure, Nat.zero_add]
        rfl
      · rw [← hfinal]
        exact UInt16.toNat_ofNat_of_lt' (Nat.lt_of_lt_of_le hlt hspace)

/-- `mov al, 5` in the last two bytes of memory is listed as one instruction of two bytes, and the
last byte of memory lies in it. -/
theorem listing_partitions_program_top :
    ∃ s : Simulator, Simulator.load {} [0xB0, 0x05] 0xFFFE = .ok s ∧ s.ExtentInMemory ∧
      ∃ (written : WrittenListing) (ds : List Decoded),
        (Session.perform { simulator := s } (.disassembleTo none)).1 = .written written ∧
        written.result = .ok 1 ∧ ds.length = 1 ∧ (ds.map Decoded.size).sum = 2 ∧
        ∃! k : Nat, ∃ d, ds[k]? = some d ∧ d.Covers 0xFFFF := by
  have hencodes : Encodes [0xB0, 0x05] (.pair .mov (.register .al) (.immediate (.ofByte 5))) :=
    .movImmediateToRegister .al (.byte 5)
  obtain ⟨s, hload, hstart, hend⟩ : ∃ s : Simulator,
      Simulator.load {} [0xB0, 0x05] 0xFFFE = .ok s ∧ s.programStart = 0xFFFE ∧
        s.programEnd = 0x10000 := ⟨_, rfl, rfl, rfl⟩
  have hextent := listing_partitions_program.1 _ _ _ _ hload
  obtain ⟨written, ds, hwritten, -, -, hresult⟩ :=
    listing_partitions_program.2 { simulator := s } hextent
  have hone : written.result = .ok 1 := by
    have hreply := (Session.disassembleTo_none { simulator := s }).symm.trans hwritten
    rw [hencodes.listing_of_load hload, Reply.written.injEq] at hreply
    rw [← hreply]
    rfl
  refine ⟨s, hload, hextent, written, ds, hwritten, hone, ?_⟩
  rcases hresult with ⟨hlength, hsum, hcovers⟩ | ⟨address, source, hfailure, -⟩
  · rw [hstart, hend] at hsum hcovers
    refine ⟨?_, hsum, hcovers 0xFFFF (by decide) (by decide)⟩
    rw [hone, Except.ok.injEq] at hlength
    exact hlength.symm
  · cases hone.symm.trans hfailure

end Machine8086
