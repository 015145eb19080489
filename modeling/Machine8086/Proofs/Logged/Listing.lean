import Machine8086.Logged.Session
import Machine8086.Proofs.Checked.Listing
import Machine8086.Proofs.Logged.Simulator
import Machine8086.Proofs.Safety

/-!
# Listings with their log calls

A listing tells of each instruction when it is decoded, and that is when the writer has taken the
lines before it (`started`). At the end it tells of the whole (`does_disassembleTo`). With a writer
that keeps everything this is the listing of the model (`does_disassemble`), and with one of limited
capacity it is the part of the listing that fits (`does_disassembleTo_limited`).
-/

namespace Machine8086.Logged

open LoggedAction

variable {ω δ ε : Type} (writer : Checked.Writer ω δ)

/-! ## Any writer -/

/-- Gives texts to the writer, each with a line end, until it fails. -/
def writeLines : List String → ω → Except δ Unit × ω
  | [], w => (.ok (), w)
  | text :: texts, w =>
    match writeLine writer text w with
    | (.ok (), w) => writeLines texts w
    | (.error e, w) => (.error e, w)

/-- The texts of instructions. -/
def texts (ds : List Decoded) : List String := ds.map fun d => d.instruction.text

/-- The instructions that are decoded: the writer has taken the lines of those before. -/
def started : List Decoded → ω → List Decoded
  | [], _ => []
  | d :: ds, w =>
    d :: match writeLine writer d.instruction.text w with
      | (.ok (), w) => started ds w
      | (.error _, _) => []

/-- The instructions of a listing that are decoded: none if the header is refused. -/
def startedOf (listing : Listing) (w : ω) : List Decoded :=
  match writeLine writer "bits 16\n" w with
  | (.ok (), w) => started writer listing.instructions w
  | (.error _, _) => []

/-- The lines of a listing: the directive with its own line end, then the instructions. -/
def linesOf (listing : Listing) : List String := "bits 16\n" :: texts listing.instructions

/-- Result of a listing after so many instructions, from how the writer took it. -/
def endResult (index : Nat) (listing : Listing) :
    Except δ Unit → Except (Checked.ListingFailure δ) Nat
  | .error e => .error (.writer e)
  | .ok () =>
    match listing.failure with
    | some e => .error (.listing e)
    | none => .ok (index + listing.instructions.length)

/-- Events at the end of a listing, from how the writer took it. -/
def endEvents (index : Nat) (listing : Listing) : Except δ Unit → List Event
  | .error _ => []
  | .ok () =>
    match listing.failure with
    | some e => [.decodeFailed e.source]
    | none => [.listed (index + listing.instructions.length)]

variable {writer} {s : Simulator}

/-- An instruction that is listed first counts before the others. -/
theorem endResult_cons (index : Nat) (d : Decoded) (rest : Listing) (taken : Except δ Unit) :
    endResult index { rest with instructions := d :: rest.instructions } taken =
      endResult (index + 1) rest taken := by
  match taken with
  | .error e => rfl
  | .ok () => rw [endResult, endResult, List.length_cons, Nat.add_assoc, Nat.add_comm 1]

theorem endEvents_cons (index : Nat) (d : Decoded) (rest : Listing) (taken : Except δ Unit) :
    endEvents index { rest with instructions := d :: rest.instructions } taken =
      endEvents (index + 1) rest taken := by
  match taken with
  | .error e => rfl
  | .ok () => rw [endEvents, endEvents, List.length_cons, Nat.add_assoc, Nat.add_comm 1]

/-- From a position on, the instructions from there are listed and told of. -/
theorem does_listFrom (hspace : s.programEnd ≤ addressSpace) (position index : Nat) :
    ∀ rounds w, s.programEnd - position ≤ rounds →
      let listing := s.memory.listing s.programEnd position index
      let taken := writeLines writer (texts listing.instructions) w
      Does (listFrom writer rounds position index w : LoggedAction ε (Listed ω δ)) s
        (.ok (endResult index listing taken.1, taken.2)) s
        (entriesOf ((started writer listing.instructions w).map .decoded ++
          endEvents index listing taken.1)) := by
  refine s.memory.listing_induction (motive := fun position index listing => ∀ rounds w,
    s.programEnd - position ≤ rounds →
      let taken := writeLines writer (texts listing.instructions) w
      Does (listFrom writer rounds position index w : LoggedAction ε (Listed ω δ)) s
        (.ok (endResult index listing taken.1, taken.2)) s
        (entriesOf ((started writer listing.instructions w).map .decoded ++
          endEvents index listing taken.1)))
    index ?_ ?_ ?_
  · intro position index hposition rounds w hrounds
    rw [listFrom.eq_def]
    apply Does.getSimulator_bind
    rw [if_pos hposition]
    exact .log_bind (does_pure _ s)
  · intro position index e hposition hdecode rounds w hrounds
    obtain ⟨rounds, rfl⟩ : ∃ more, rounds = more + 1 := ⟨rounds - 1, by omega⟩
    have hdoes := does_decode (UInt16.ofNat position) s.programEnd s
    rw [hdecode] at hdoes
    -- there is a byte before the end, so the error is one that is told
    have hreported : e ≠ .endOfStream := by
      rintro rfl
      refine decode_ne_endOfStream ?_ hdecode
      rw [UInt16.toNat_ofNat_of_lt' (Nat.lt_of_lt_of_le hposition hspace)]
      exact Nat.lt_min.2 ⟨hposition, Nat.lt_of_lt_of_le hposition hspace⟩
    have hevents : decodeEvents (.error e) = [.decodeFailed e] := by
      cases e with
      | endOfStream => exact absurd rfl hreported
      | unknownOpcode opcode address => rfl
      | missingBytes address needed => rfl
    rw [hevents] at hdoes
    rw [listFrom]
    apply Does.getSimulator_bind
    rw [if_neg (Nat.not_le.2 hposition)]
    exact hdoes.attempt.bind_silent (does_pure _ s)
  · intro position index d rest hposition hdecode ih rounds w hrounds
    obtain ⟨rounds, rfl⟩ : ∃ more, rounds = more + 1 := ⟨rounds - 1, by omega⟩
    have hsize := (decode_eq_ok hdecode).2
    have hdoes := does_decode (UInt16.ofNat position) s.programEnd s
    rw [hdecode] at hdoes
    rw [listFrom]
    apply Does.getSimulator_bind
    rw [if_neg (Nat.not_le.2 hposition), endResult_cons, endEvents_cons, started, List.map_cons]
    refine Does.bind hdoes.attempt ?_
    -- the listing goes on only if the writer takes the line
    rw [texts, List.map_cons, writeLines]
    dsimp only
    match writeLine writer d.instruction.text w with
    | (.ok (), w') => exact ih rounds w' (by omega)
    | (.error e, w') => exact does_pure _ s

theorem does_disassembleTo (hextent : s.ExtentInMemory) (w : ω) :
    let taken := writeLines writer (linesOf s.listing) w
    Does (disassembleTo writer w : LoggedAction ε (Listed ω δ)) s
      (.ok (endResult 0 s.listing taken.1, taken.2)) s
      (entriesOf
        ((startedOf writer s.listing w).map .decoded ++ endEvents 0 s.listing taken.1)) := by
  have hend := hextent.end_le
  rw [linesOf, writeLines, startedOf]
  apply Does.getSimulator_bind
  match writeLine writer "bits 16\n" w with
  | (.ok (), w') => exact does_listFrom hend _ 0 addressSpace w' (by omega)
  | (.error e, w') => exact does_pure _ s

/-! ## Writers that take everything -/

section TakesAll

variable {writer : Checked.Writer String δ}
  (htakes : ∀ piece kept, writer piece kept = (.ok (), kept ++ piece))
include htakes

theorem writeLine_of_takesAll (text kept : String) :
    writeLine writer text kept = (.ok (), kept ++ (text ++ "\n")) := by
  rw [writeLine, htakes]
  dsimp only
  rw [htakes, String.append_assoc]

theorem writeLines_of_takesAll (lines : List String) (kept : String) :
    writeLines writer lines kept =
      (.ok (), kept ++ String.join (lines.map (· ++ "\n"))) := by
  induction lines generalizing kept with
  | nil => simp [writeLines]
  | cons line lines ih =>
    rw [writeLines, writeLine_of_takesAll htakes, List.map_cons, String.join_cons]
    refine (ih _).trans ?_
    rw [String.append_assoc]

theorem started_of_takesAll (ds : List Decoded) (kept : String) : started writer ds kept = ds := by
  induction ds generalizing kept with
  | nil => rfl
  | cons d ds ih =>
    rw [started, writeLine_of_takesAll htakes]
    dsimp only
    rw [ih]

end TakesAll

/-! ## Writers of limited capacity -/

theorem limited_of_le {capacity : Nat} {piece taken : String}
    (h : (taken ++ piece).length ≤ capacity) :
    limited (some capacity) piece taken = (.ok (), taken ++ piece) := if_pos h

theorem limited_of_lt {capacity : Nat} {piece taken : String}
    (h : capacity < (taken ++ piece).length) :
    limited (some capacity) piece taken =
      (.error (), String.ofList ((taken ++ piece).toList.take capacity)) := if_neg (Nat.not_le.2 h)

/-- Once a piece does not fit, nothing after it makes a difference. -/
theorem limited_append_of_lt {capacity : Nat} {piece taken : String}
    (h : capacity < (taken ++ piece).length) (more : String) :
    limited (some capacity) (piece ++ more) taken = limited (some capacity) piece taken := by
  have hlonger : capacity < (taken ++ (piece ++ more)).length := by
    rw [← String.append_assoc, String.length_append]
    exact Nat.lt_of_lt_of_le h (Nat.le_add_right _ _)
  rw [limited_of_lt h, limited_of_lt hlonger, ← String.append_assoc, String.toList_append,
    List.take_append_of_le_length]
  rw [String.length_toList]
  exact Nat.le_of_lt h

theorem writeLine_limited (capacity : Nat) (text taken : String) :
    writeLine (limited (some capacity)) text taken =
      limited (some capacity) (text ++ "\n") taken := by
  rw [writeLine]
  rcases Nat.lt_or_ge capacity (taken ++ text).length with hfull | hfits
  · rw [limited_append_of_lt hfull, limited_of_lt hfull]
  · rw [limited_of_le hfits]
    dsimp only [limited]
    rw [String.append_assoc]

variable {capacity : Nat} {taken : String}

theorem writeLines_limited (h : taken.length ≤ capacity) (lines : List String) :
    writeLines (limited (some capacity)) lines taken =
      limited (some capacity) (String.join (lines.map (· ++ "\n"))) taken := by
  induction lines generalizing taken with
  | nil => simpa [writeLines] using (@limited_of_le capacity "" taken (by simpa using h)).symm
  | cons line lines ih =>
    rw [writeLines, writeLine_limited, List.map_cons, String.join_cons]
    rcases Nat.lt_or_ge capacity (taken ++ (line ++ "\n")).length with hfull | hfits
    · rw [limited_append_of_lt hfull, limited_of_lt hfull]
    · rw [limited_of_le hfits]
      refine (ih hfits).trans ?_
      dsimp only [limited]
      rw [String.append_assoc]

theorem started_limited (h : taken.length ≤ capacity) (ds : List Decoded) :
    started (limited (some capacity)) ds taken =
      Listing.startedWithin (capacity - taken.length) ds := by
  induction ds generalizing taken with
  | nil => rfl
  | cons d ds ih =>
    have hlength : (taken ++ (d.instruction.text ++ "\n")).length =
        taken.length + (Listing.line d).length := String.length_append ..
    rw [started, writeLine_limited, Listing.startedWithin]
    rcases Nat.lt_or_ge capacity (taken ++ (d.instruction.text ++ "\n")).length with hfull | hfits
    · rw [limited_of_lt hfull, if_neg (by omega)]
    · rw [limited_of_le hfits, if_pos (by omega)]
      dsimp only
      rw [ih hfits, hlength, Nat.sub_add_eq]

theorem startedOf_limited (capacity : Nat) (listing : Listing) :
    startedOf (limited (some capacity)) listing "" =
      if capacity < Listing.header.length then []
      else Listing.startedWithin (capacity - Listing.header.length) listing.instructions := by
  have hheader : "" ++ ("bits 16\n" ++ "\n") = Listing.header := rfl
  rw [startedOf, writeLine_limited]
  rcases Nat.lt_or_ge capacity Listing.header.length with hfull | hfits
  · rw [if_pos hfull, limited_of_lt (by rwa [hheader])]
  · rw [if_neg (Nat.not_lt.2 hfits), limited_of_le (by rwa [hheader]), hheader]
    exact started_limited hfits listing.instructions

/-- If there is room for all lines, all of them are started. -/
theorem startedWithin_of_le {room : Nat} {ds : List Decoded}
    (h : (String.join (ds.map Listing.line)).length ≤ room) :
    Listing.startedWithin room ds = ds := by
  induction ds generalizing room with
  | nil => rfl
  | cons d ds ih =>
    rw [List.map_cons, String.join_cons, String.length_append] at h
    rw [Listing.startedWithin, if_pos (by omega), ih (by omega)]

/-! ## The listing of the model -/

/-- The lines make up the text. -/
theorem join_linesOf (listing : Listing) :
    String.join ((linesOf listing).map (· ++ "\n")) = listing.text := by
  rw [linesOf, texts, List.map_cons, List.map_map, String.join_cons]
  rfl

/-- What the writer took whole has the number of instructions or the failure. -/
theorem endResult_ok (listing : Listing) :
    (endResult 0 listing (.ok ()) : Except (Checked.ListingFailure δ) Nat) =
      listing.count.mapError .listing := by
  rw [endResult.eq_def, Listing.count, Nat.zero_add]
  cases listing.failure <;> rfl

theorem events_eq (listing : Listing) :
    listing.events =
      listing.instructions.map .decoded ++ endEvents 0 listing (.ok () : Except δ Unit) := by
  rw [Listing.events]
  cases hfailure : listing.failure with
  | some e => rw [endEvents, hfailure]
  | none => rw [endEvents, hfailure, Nat.zero_add]

/-- A writer that takes everything has the whole text, and all is told of. -/
theorem does_disassembleTo_of_takesAll {writer : Checked.Writer String δ}
    (hextent : s.ExtentInMemory)
    (htakes : ∀ piece kept, writer piece kept = (.ok (), kept ++ piece)) :
    Does (disassembleTo writer "" : LoggedAction ε (Listed String δ)) s
      (.ok (s.listing.count.mapError .listing, s.listing.text)) s (entriesOf s.listing.events) := by
  have hlines := writeLines_of_takesAll htakes (linesOf s.listing) ""
  rw [join_linesOf, String.empty_append] at hlines
  have hstarted : startedOf writer s.listing "" = s.listing.instructions := by
    rw [startedOf, writeLine_of_takesAll htakes]
    exact started_of_takesAll htakes _ _
  have hdoes := @does_disassembleTo _ _ ε writer s hextent ""
  rw [hlines, hstarted] at hdoes
  rw [← endResult_ok, events_eq]
  exact hdoes

/-- The listing as a text, told of while it is made. -/
theorem does_disassemble (hextent : s.ExtentInMemory) :
    disassemble.Does s s.listing.disassembly s (entriesOf s.listing.events) := by
  have hdoes := @does_disassembleTo_of_takesAll _ ListingError _ Checked.keepText hextent
    fun _ _ => rfl
  rw [Listing.count] at hdoes
  rw [disassemble, Listing.disassembly]
  cases hfailure : s.listing.failure with
  | some e =>
    rw [hfailure] at hdoes
    exact hdoes.bind_silent (does_throw _ s)
  | none =>
    rw [hfailure] at hdoes
    exact hdoes.bind_silent (does_pure _ s)

/-- A writer of limited capacity has what fits, and what is decoded for it is told of. -/
theorem does_disassembleTo_limited (hextent : s.ExtentInMemory) (capacity : Option Nat) :
    ∃ result text,
      Does (disassembleTo (limited capacity) "" : LoggedAction ε (Listed String Unit)) s
        (.ok (result, text)) s
        (entriesOf (s.listing.writeEvents (capacity.getD s.listing.text.length))) ∧
      WrittenListing.mk text (result.mapError writeError) =
        s.listing.writeTo (capacity.getD s.listing.text.length) := by
  have hwhole : WrittenListing.mk s.listing.text
      (((s.listing.count.mapError .listing : Except (Checked.ListingFailure Unit) Nat)).mapError
        writeError) = ⟨s.listing.text, s.listing.count.mapError .listing⟩ := by
    cases s.listing.count <;> rfl
  cases capacity with
  | none =>
    rw [Option.getD_none, Listing.writeEvents, Listing.writeTo, if_pos (Nat.le_refl _),
      if_pos (Nat.le_refl _)]
    exact ⟨_, _, does_disassembleTo_of_takesAll hextent fun _ _ => rfl, hwhole⟩
  | some capacity =>
    have hlines := @writeLines_limited capacity "" (Nat.zero_le _) (linesOf s.listing)
    have hdoes := @does_disassembleTo _ _ ε (limited (some capacity)) s hextent ""
    rw [join_linesOf] at hlines
    rw [hlines, startedOf_limited] at hdoes
    rw [Option.getD_some, Listing.writeEvents, Listing.writeTo]
    rcases Nat.lt_or_ge capacity s.listing.text.length with hfull | hfits
    · rw [limited_of_lt (by rwa [String.empty_append])] at hdoes
      rw [if_neg (Nat.not_le.2 hfull), if_neg (Nat.not_le.2 hfull)]
      refine ⟨.error (.writer ()), _, ?_, rfl⟩
      dsimp only [endResult, endEvents] at hdoes
      rw [List.append_nil, apply_ite (List.map Event.decoded), List.map_nil,
        String.empty_append] at hdoes
      exact hdoes
    · rw [limited_of_le (by rwa [String.empty_append]), String.empty_append] at hdoes
      rw [if_pos hfits, if_pos hfits]
      have hlength : s.listing.text.length = Listing.header.length +
          (String.join (s.listing.instructions.map Listing.line)).length := String.length_append ..
      refine ⟨_, _, ?_, hwhole⟩
      rw [if_neg (by omega), startedWithin_of_le (by omega)] at hdoes
      rw [← endResult_ok, events_eq]
      exact hdoes

end Machine8086.Logged
