import Machine8086.Proofs.Checked.Simulator
import Machine8086.Proofs.Tiling

/-!
# Listings in place

A listing in place gives the writer the pieces of the listing of the model until it fails
(`exec_disassembleTo`), and with a writer that keeps all of them it is that listing
(`exec_disassemble`).
-/

namespace Machine8086.Checked

variable {ω ε : Type} (writer : Writer ω ε)

/-- Gives pieces of text to a writer, one after the other, until it fails. -/
def putAll : List String → ω → Except ε Unit × ω
  | [], w => (.ok (), w)
  | piece :: pieces, w =>
    match writer piece w with
    | (.ok (), w) => putAll pieces w
    | (.error e, w) => (.error e, w)

/-- The pieces in which instructions are listed. -/
def linePieces (ds : List Decoded) : List String :=
  ds.flatMap fun d => [d.instruction.text, "\n"]

/-- How a listing in place ends, from how the writer took the pieces. -/
def listingEnd (s : Simulator) (index : Nat) (listing : Listing) :
    Except ε Unit × ω → Except (ListingFailure ε) Nat × Simulator × ω
  | (.error e, w) => (.error (.writer e), s, w)
  | (.ok (), w) =>
    match listing.failure with
    | some e => (.error (.listing e), s, w)
    | none => (.ok (index + listing.instructions.length), s, w)

variable {writer} {s : Simulator}

theorem exec_put_of_ok {piece : String} {w w' : ω} (h : writer piece w = (.ok (), w')) :
    (put writer piece).exec (s, w) = .ok (.ok (), s, w') := by
  rw [put, Action.exec_bind_of_ok (Action.exec_get (s, w))]
  dsimp only
  rw [h]
  rfl

theorem exec_put_of_error {piece : String} {e : ε} {w w' : ω}
    (h : writer piece w = (.error e, w')) :
    (put writer piece).exec (s, w) = .ok (.error (.writer e), s, w') := by
  rw [put, Action.exec_bind_of_ok (Action.exec_get (s, w))]
  dsimp only
  rw [h]
  rfl

/-- What comes after a piece comes after it only if the writer took it. -/
theorem exec_put_bind {next : Unit → Action (Simulator × ω) (ListingFailure ε) Nat} {piece : String}
    {pieces : List String} {listing : Listing} {index : Nat} {w : ω}
    (h : ∀ w',
      (next ()).exec (s, w') = .ok (listingEnd s index listing (putAll writer pieces w'))) :
    (put writer piece >>= next).exec (s, w) =
      .ok (listingEnd s index listing (putAll writer (piece :: pieces) w)) := by
  rw [putAll]
  match hput : writer piece w with
  | (.ok (), w') => rw [Action.exec_bind_of_ok (exec_put_of_ok hput), h w']
  | (.error e, w') =>
    rw [Action.exec_bind_of_error (exec_put_of_error hput)]
    rfl

/-- An instruction that is listed first counts before the others. -/
theorem listingEnd_cons (index : Nat) (d : Decoded) (rest : Listing) (taken : Except ε Unit × ω) :
    listingEnd s index { rest with instructions := d :: rest.instructions } taken =
      listingEnd s (index + 1) rest taken := by
  match taken with
  | (.error e, w) => rfl
  | (.ok (), w) =>
    rw [listingEnd, listingEnd, List.length_cons, Nat.add_assoc, Nat.add_comm 1]

/-- From a position on, the pieces of the listing from there are given to the writer. -/
theorem exec_listFrom (hspace : s.programEnd ≤ addressSpace) (position index : Nat) :
    ∀ rounds w, s.programEnd - position ≤ rounds →
      index + (s.programEnd - position) ≤ addressSpace →
        (listFrom writer rounds position index).exec (s, w) =
          let listing := s.memory.listing s.programEnd position index
          .ok (listingEnd s index listing (putAll writer (linePieces listing.instructions) w)) := by
  refine s.memory.listing_induction (motive := fun position index listing => ∀ rounds w,
    s.programEnd - position ≤ rounds → index + (s.programEnd - position) ≤ addressSpace →
      (listFrom writer rounds position index).exec (s, w) =
        .ok (listingEnd s index listing (putAll writer (linePieces listing.instructions) w)))
    index ?_ ?_ ?_
  · intro position index hposition rounds w hrounds hindex
    rw [listFrom, Action.exec_bind_of_ok (Action.exec_get (s, w))]
    simp only [if_pos hposition]
    rfl
  · intro position index e hposition hdecode rounds w hrounds hindex
    obtain ⟨rounds, rfl⟩ : ∃ more, rounds = more + 1 := ⟨rounds - 1, by omega⟩
    rw [listFrom, Action.exec_bind_of_ok (Action.exec_get (s, w))]
    simp only [if_neg (Nat.not_le.2 hposition), decode_eq, hdecode]
    rfl
  · intro position index d rest hposition hdecode ih rounds w hrounds hindex
    obtain ⟨rounds, rfl⟩ : ∃ more, rounds = more + 1 := ⟨rounds - 1, by omega⟩
    -- every instruction has a byte, so position and index stay below the size of memory
    have hspace' : s.programEnd ≤ 65536 := hspace
    have htop : addressSpace = 65536 := rfl
    have haddress := (decode_eq_ok hdecode).1
    obtain ⟨hlow, hhigh⟩ := decode_size_bounds hdecode
    have hsize : (d.next - UInt16.ofNat position).toNat = d.size := by
      rw [← haddress, Decoded.next_sub, UInt16.toNat_ofNat_of_lt' (by omega : d.size < 65536)]
    have hsum : sum 32 position d.size = .ok (position + d.size) := sum_eq_ok (by omega)
    have hcount : sum 64 index 1 = .ok (index + 1) := sum_eq_ok (by omega)
    rw [listFrom, Action.exec_bind_of_ok (Action.exec_get (s, w))]
    simp only [if_neg (Nat.not_le.2 hposition), decode_eq, hdecode, Action.lift_ok_bind, text_eq,
      hsize, hsum, hcount]
    refine exec_put_bind fun w' => exec_put_bind fun w'' => ?_
    rw [listingEnd_cons]
    exact ih rounds w'' (by omega) (by omega)

/-- The pieces of a listing. -/
def pieces (listing : Listing) : List String :=
  "bits 16\n" :: "\n" :: linePieces listing.instructions

/-- A listing in place has no faults, whatever the writer does with the pieces. -/
theorem exec_disassembleTo (hextent : s.ExtentInMemory) (w : ω) :
    (disassembleTo writer).exec (s, w) =
      .ok (listingEnd s 0 s.listing (putAll writer (pieces s.listing) w)) := by
  have hspace := hextent.end_le
  refine exec_put_bind fun w' => exec_put_bind fun w'' => ?_
  rw [Action.exec_bind_of_ok (Action.exec_get (s, w''))]
  exact exec_listFrom hspace _ 0 addressSpace w'' (by omega) (by omega)

/-- A writer that keeps all pieces has them all, one after the other. -/
theorem putAll_keepText (list : List String) (kept : String) :
    putAll keepText list kept = (.ok (), kept ++ String.join list) := by
  induction list generalizing kept with
  | nil => simp [putAll]
  | cons piece list ih =>
    rw [putAll, String.join_cons, ← String.append_assoc]
    exact ih (kept ++ piece)

/-- The pieces make up the text. -/
theorem join_pieces (listing : Listing) : String.join (pieces listing) = listing.text := by
  have hlines : ∀ ds : List Decoded,
      String.join (linePieces ds) = String.join (ds.map Listing.line) := by
    intro ds
    induction ds with
    | nil => rfl
    | cons d ds ih =>
      rw [List.map_cons, String.join_cons, ← ih]
      simp [linePieces, Listing.line, String.append_assoc]
  rw [pieces, String.join_cons, String.join_cons, hlines, ← String.append_assoc]
  rfl

/-- The listing in place is the listing of the model. -/
theorem exec_disassemble (hextent : s.ExtentInMemory) :
    disassemble.exec s = .ok (s.listing.disassembly, s) := by
  rw [disassemble, Action.exec_bind_of_ok (Action.exec_get s), exec_disassembleTo hextent,
    putAll_keepText, join_pieces, Listing.disassembly, String.empty_append, listingEnd]
  cases s.listing.failure with
  | none => rfl
  | some e => rfl

end Machine8086.Checked
