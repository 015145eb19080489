import Machine8086.Proofs.Tiling
import Machine8086.Proofs.Concatenation
import Machine8086.Proofs.Relocation

/-!
# Listings at another place

The listing of a program is a matter of its bytes alone. Where the same bytes stand at two places,
each position at the same distance from the start decodes alike (`Memory.decode_at_distance`), and
from this, by induction along the listing, one listing is the other at moved addresses
(`Memory.listing_moved`). No text of an instruction names an address, so the texts are the same, and
a listing that fails does so at the same distance from the start, with the same index and for the
same reason (`listing_position_independent`).
-/

namespace Machine8086

section Moved

variable (distance : UInt16)

/-- The listing error at a moved address. -/
def ListingError.moved (e : ListingError) : ListingError :=
  ⟨e.index, e.address + distance, e.source.moved distance⟩

/-- The listing at moved addresses. -/
def Listing.moved (listing : Listing) : Listing :=
  ⟨listing.instructions.map (Decoded.moved distance),
    listing.failure.map (ListingError.moved distance)⟩

theorem Listing.text_moved (listing : Listing) : (listing.moved distance).text = listing.text := by
  apply Listing.text_eq_of_instructions_eq
  simp [moved, Decoded.moved, Function.comp_def]

theorem Listing.disassembly_moved (listing : Listing) :
    (listing.moved distance).disassembly =
      listing.disassembly.mapError (ListingError.moved distance) := by
  rw [disassembly, disassembly, text_moved]
  cases h : listing.failure with
  | none => simp [moved, h, Except.mapError]
  | some e => simp [moved, h, Except.mapError]

end Moved

/-! ## The same bytes at two places -/

namespace Memory

variable {m n : Memory} {start start' : UInt16} {length : Nat}

theorem ofNat_add_distance (start start' : UInt16) (k : Nat) :
    UInt16.ofNat (start.toNat + k) + (start' - start) = UInt16.ofNat (start'.toNat + k) := by
  apply UInt16.toNat_inj.mp
  have hstart := start.toNat_lt
  have hstart' := start'.toNat_lt
  simp only [UInt16.toNat_add, UInt16.toNat_sub, UInt16.toNat_ofNat']
  omega

/-- At the same distance from the start of the same bytes, the same is decoded. -/
theorem decode_at_distance (hspace : start.toNat + length ≤ addressSpace)
    (hspace' : start'.toNat + length ≤ addressSpace)
    (hread : ∀ i < length, n.read (start' + UInt16.ofNat i) = m.read (start + UInt16.ofNat i))
    {k : Nat} (hk : k < length) :
    decode n (UInt16.ofNat (start'.toNat + k)) (start'.toNat + length) =
      ((decode m (UInt16.ofNat (start.toNat + k)) (start.toNat + length)).map
        (Decoded.moved (start' - start))).mapError (DecodeError.moved (start' - start)) := by
  have htoNat : (UInt16.ofNat (start.toNat + k)).toNat = start.toNat + k :=
    UInt16.toNat_ofNat_of_lt' (Nat.lt_of_lt_of_le (by omega) hspace)
  have htoNat' : (UInt16.ofNat (start'.toNat + k)).toNat = start'.toNat + k :=
    UInt16.toNat_ofNat_of_lt' (Nat.lt_of_lt_of_le (by omega) hspace')
  rw [← ofNat_add_distance start start' k]
  apply decode_moved
  · rw [ofNat_add_distance, htoNat, htoNat']
    omega
  · intro i hi
    rw [htoNat] at hi
    have hbyte := hread (k + i) (by omega)
    rw [ofNat_add_distance, UInt16.ofNat_add, UInt16.ofNat_add start.toNat, UInt16.ofNat_toNat,
      UInt16.ofNat_toNat, UInt16.add_assoc, UInt16.add_assoc start, ← UInt16.ofNat_add]
    exact hbyte

/-- The same bytes at two places have the same listing, at moved addresses. -/
theorem listing_moved (hspace : start.toNat + length ≤ addressSpace)
    (hspace' : start'.toNat + length ≤ addressSpace)
    (hread : ∀ i < length, n.read (start' + UInt16.ofNat i) = m.read (start + UInt16.ofNat i))
    (k index : Nat) :
    n.listing (start'.toNat + length) (start'.toNat + k) index =
      (m.listing (start.toNat + length) (start.toNat + k) index).moved (start' - start) := by
  -- the induction is along the listing at the first place; `k` is how far it has come
  generalize hposition : start.toNat + k = position
  revert k
  refine m.listing_induction (motive := fun position index listing => ∀ k,
    start.toNat + k = position → n.listing (start'.toNat + length) (start'.toNat + k) index =
      listing.moved (start' - start)) index ?_ ?_ ?_
  · rintro position index hposition k rfl
    exact n.listing_of_le index (by omega)
  · rintro position index e hposition hdecode k rfl
    have hdecode' := decode_at_distance hspace hspace' hread (k := k) (by omega)
    rw [hdecode] at hdecode'
    rw [n.listing_of_error index (by omega) hdecode', ← ofNat_add_distance start start' k]
    rfl
  · rintro position index d rest hposition hdecode ih k rfl
    have hdecode' := decode_at_distance hspace hspace' hread (k := k) (by omega)
    rw [hdecode] at hdecode'
    have hrest := ih (k + d.size) (by omega)
    have hsize : (d.moved (start' - start)).size = d.size := rfl
    rw [n.listing_of_ok index (by omega) hdecode', hsize, Nat.add_assoc, hrest]
    rfl

end Memory

/-! ## Loaded programs -/

namespace Simulator

/-- The listing of a program that is loaded at two places. -/
theorem listing_moved_of_load {s s' t t' : Simulator} {program : List UInt8}
    {start start' : UInt16} (hload : s.load program start = .ok t)
    (hload' : s'.load program start' = .ok t') :
    t'.listing = t.listing.moved (start' - start) := by
  obtain ⟨hspace, hlisting⟩ := listing_of_load hload
  obtain ⟨hspace', hlisting'⟩ := listing_of_load hload'
  rw [hlisting, hlisting']
  apply Memory.listing_moved hspace hspace' _ 0 0
  intro i hi
  exact Option.some.inj ((getElem?_of_load_at hload' hi).symm.trans (getElem?_of_load_at hload hi))

/-- A listing that fails names a place in the program, and the reason names the same place. -/
theorem listing_error_of_load {s t : Simulator} {program : List UInt8} {start : UInt16}
    (hload : s.load program start = .ok t) {e : ListingError} (h : t.listing.failure = some e) :
    ∃ k < program.length, e.address = UInt16.ofNat (start.toNat + k) ∧
      ((∃ opcode, e.source = .unknownOpcode opcode e.address) ∨
        ∃ needed, e.source = .missingBytes e.address needed) := by
  obtain ⟨hspace, hlisting⟩ := listing_of_load hload
  rw [hlisting] at h
  obtain ⟨final, htiles, hend⟩ :=
    t.memory.listing_tiles (start.toNat + program.length) start.toNat 0
  rcases hend with ⟨hnone, -⟩ | ⟨hlt, source, hdecode, hsome⟩
  · rw [hnone] at h
    cases h
  · rw [hsome] at h
    cases h
    have hfinal := htiles.final_eq
    refine ⟨final - start.toNat, by omega, by rw [Nat.add_sub_cancel' (by omega)], ?_⟩
    have houtcome :=
      decode_outcome t.memory (UInt16.ofNat final) (start.toNat + program.length)
    rw [hdecode] at houtcome
    cases houtcome with
    | endOfStream hend =>
      -- the place is before the end, so there is a byte
      rw [UInt16.toNat_ofNat_of_lt' (Nat.lt_of_lt_of_le hlt hspace)] at hend
      omega
    | unknownOpcode => exact .inl ⟨_, rfl⟩
    | missingBytes => exact .inr ⟨_, rfl⟩

end Simulator

/-- The listing of a program does not depend on where it is loaded, nor on what else is in memory.
It can be loaded at both places, and either both listings succeed with the same text, or both fail
with the same index, at the same distance from the start, and for the same reason. -/
theorem listing_position_independent (s s' : Simulator) {program : List UInt8}
    {start start' : UInt16} (hspace : start.toNat + program.length ≤ addressSpace)
    (hspace' : start'.toNat + program.length ≤ addressSpace) :
    ∃ t t', s.load program start = .ok t ∧ s'.load program start' = .ok t' ∧
      ((∃ text, t.listing.disassembly = .ok text ∧ t'.listing.disassembly = .ok text) ∨
        ∃ e e', t.listing.disassembly = .error e ∧ t'.listing.disassembly = .error e' ∧
          e'.index = e.index ∧
          (∃ k < program.length, e.address.toNat = start.toNat + k ∧
            e'.address.toNat = start'.toNat + k) ∧
          ((∃ opcode, e.source = .unknownOpcode opcode e.address ∧
              e'.source = .unknownOpcode opcode e'.address) ∨
            ∃ needed, e.source = .missingBytes e.address needed ∧
              e'.source = .missingBytes e'.address needed)) := by
  obtain ⟨t, hload⟩ : ∃ t, s.load program start = .ok t :=
    ⟨_, (Simulator.load_eq_ok_iff ..).2 ⟨hspace, rfl⟩⟩
  obtain ⟨t', hload'⟩ : ∃ t', s'.load program start' = .ok t' :=
    ⟨_, (Simulator.load_eq_ok_iff ..).2 ⟨hspace', rfl⟩⟩
  refine ⟨t, t', hload, hload', ?_⟩
  rw [Simulator.listing_moved_of_load hload hload', Listing.disassembly_moved]
  cases hdisassembly : t.listing.disassembly with
  | ok text => exact .inl ⟨text, rfl, rfl⟩
  | error e =>
    have hfailure := (Listing.disassembly_eq_error_iff ..).1 hdisassembly
    obtain ⟨k, hk, haddress, hsource⟩ := Simulator.listing_error_of_load hload hfailure
    have haddress' : (e.moved (start' - start)).address = UInt16.ofNat (start'.toNat + k) := by
      rw [← Memory.ofNat_add_distance start start' k, ← haddress]
      rfl
    refine .inr ⟨e, e.moved (start' - start), rfl, rfl, rfl, ⟨k, hk, ?_, ?_⟩, ?_⟩
    · rw [haddress]
      exact UInt16.toNat_ofNat_of_lt' (Nat.lt_of_lt_of_le (by omega) hspace)
    · rw [haddress']
      exact UInt16.toNat_ofNat_of_lt' (Nat.lt_of_lt_of_le (by omega) hspace')
    · rcases hsource with ⟨opcode, hsource⟩ | ⟨needed, hsource⟩
      · exact .inl ⟨opcode, hsource, by simp [ListingError.moved, hsource, DecodeError.moved]⟩
      · exact .inr ⟨needed, hsource, by simp [ListingError.moved, hsource, DecodeError.moved]⟩

/-- `mov al, 5` has the same listing at the bottom and at the top of memory. `mov ax` without its
last byte lacks one byte at both places, though a byte of other content follows at each. -/
theorem listing_position_independent_top :
    (∃ t t' : Simulator, Simulator.load {} [0xB0, 0x05] 0 = .ok t ∧
        Simulator.load {} [0xB0, 0x05] 0xFFFE = .ok t' ∧
        t.listing.disassembly = .ok (Listing.header ++ "mov al, 5\n") ∧
        t'.listing.disassembly = .ok (Listing.header ++ "mov al, 5\n")) ∧
      ∃ t t' : Simulator, Simulator.load {} [0xB8, 0x05] 0 = .ok t ∧
        Simulator.load { memory := Memory.zero.write 0 7 } [0xB8, 0x05] 0xFFFE = .ok t' ∧
        t.listing.disassembly = .error ⟨0, 0, .missingBytes 0 1⟩ ∧
        t'.listing.disassembly = .error ⟨0, 0xFFFE, .missingBytes 0xFFFE 1⟩ := by
  constructor
  · obtain ⟨t, t', hload, hload', hsame⟩ := @listing_position_independent {} {} [0xB0, 0x05] 0
      0xFFFE (by decide) (by decide)
    have hencodes : Encodes [0xB0, 0x05] (.pair .mov (.register .al) (.immediate (.ofByte 5))) :=
      .movImmediateToRegister .al (.byte 5)
    have htext : t.listing.disassembly = .ok (Listing.header ++ "mov al, 5\n") := by
      rw [hencodes.listing_of_load hload]
      decide +kernel
    refine ⟨t, t', hload, hload', htext, ?_⟩
    rcases hsame with ⟨text, hok, hok'⟩ | ⟨e, e', herror, -⟩
    · rw [hok', ← hok, htext]
    · cases htext.symm.trans herror
  · obtain ⟨t, t', hload, hload', hsame⟩ :=
      @listing_position_independent {} { memory := Memory.zero.write 0 7 } [0xB8, 0x05] 0 0xFFFE
        (by decide) (by decide)
    have herror : t.listing.disassembly = .error ⟨0, 0, .missingBytes 0 1⟩ := by
      obtain ⟨-, hlisting⟩ := Simulator.listing_of_load hload
      have hdecode : decode t.memory 0 2 = .error (.missingBytes 0 1) := by
        cases hload
        decide +kernel
      rw [Listing.disassembly_eq_error_iff, hlisting]
      exact congrArg Listing.failure (Memory.listing_of_error _ 0 (by decide) hdecode)
    refine ⟨t, t', hload, hload', herror, ?_⟩
    rcases hsame with ⟨text, hok, -⟩ | ⟨e, e', he, he', hindex, ⟨k, -, hk, hk'⟩, hsource⟩
    · cases herror.symm.trans hok
    · cases herror.symm.trans he
      -- the failure is at the start, so the other one is too
      obtain rfl : 0 = k := by simpa using hk
      have haddress : e'.address = 0xFFFE := UInt16.toNat_inj.mp hk'
      rcases hsource with ⟨opcode, hunknown, -⟩ | ⟨needed, hmissing, hmissing'⟩
      · cases hunknown
      · cases hmissing
        rw [he', Except.error.injEq, ListingError.mk.injEq]
        exact ⟨hindex, haddress, haddress ▸ hmissing'⟩

end Machine8086
