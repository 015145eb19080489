import Machine8086.Simulator

/-!
# Listings

The disassembly of the loaded program: two header lines, then one line per instruction, from the
start of the program to its end. A listing stops at the first place that does not decode;
`Listing.failure` says why. A writer of limited capacity receives as much of the text as fits.
-/

namespace Machine8086

/-- Disassembly stopped at the instruction with this index. -/
structure ListingError where
  index : Nat
  address : UInt16
  source : DecodeError
  deriving DecidableEq, Repr

/-- The wording of a listing error. -/
def ListingError.message (e : ListingError) : String :=
  "disassembly failed at instruction " ++ Numeral.decimal e.index ++ " (address 0x" ++
    Numeral.upperHex 4 e.address.toNat ++ "): " ++ e.source.message

/-- Instructions that follow one another, and the error that ended them, if any. -/
structure Listing where
  instructions : List Decoded
  failure : Option ListingError
  deriving DecidableEq, Repr

/-- The instructions from `position` up to `stop`; `index` counts those before. -/
def Memory.listing (m : Memory) (stop position index : Nat) : Listing :=
  if position < stop then
    match h : decode m (UInt16.ofNat position) stop with
    | .error source => ⟨[], some ⟨index, UInt16.ofNat position, source⟩⟩
    | .ok d =>
      let rest := m.listing stop (position + d.size) (index + 1)
      { rest with instructions := d :: rest.instructions }
  else ⟨[], none⟩
termination_by stop - position
decreasing_by
  have := (decode_eq_ok h).2
  omega

/-- The listing of the loaded program. -/
def Simulator.listing (s : Simulator) : Listing :=
  s.memory.listing s.programEnd s.programStart.toNat 0

namespace Listing

/-- Assembler directive and blank line at the top. -/
def header : String := "bits 16\n\n"

/-- The line of an instruction. -/
def line (d : Decoded) : String := d.instruction.text ++ "\n"

/-- Header and lines, also those before a failure. -/
def text (listing : Listing) : String := header ++ String.join (listing.instructions.map line)

/-- Number of instructions of a whole listing. -/
def count (listing : Listing) : Except ListingError Nat :=
  match listing.failure with
  | some e => .error e
  | none => .ok listing.instructions.length

/-- The text of a whole listing. -/
def disassembly (listing : Listing) : Except ListingError String :=
  match listing.failure with
  | some e => .error e
  | none => .ok listing.text

/-- The instructions whose lines begin within the first `room` bytes, the end included. -/
def startedWithin : Nat → List Decoded → List Decoded
  | _, [] => []
  | room, d :: ds =>
    let size := (line d).length
    d :: if size ≤ room then startedWithin (room - size) ds else []

end Listing

/-- Why a listing was not written to its end. -/
inductive WriteError where
  /-- The writer took no more. -/
  | full
  | listing (error : ListingError)
  deriving DecidableEq, Repr

/-- What reached a writer of limited capacity, and the number of instructions or the error. The
text consists of ASCII characters, so that bytes and characters are the same. -/
structure WrittenListing where
  text : String
  result : Except WriteError Nat

/-- Writes a listing to a writer that takes `capacity` bytes in all. -/
def Listing.writeTo (listing : Listing) (capacity : Nat) : WrittenListing :=
  let text := listing.text
  if text.length ≤ capacity then
    ⟨text, listing.count.mapError .listing⟩
  else ⟨String.ofList (text.toList.take capacity), .error .full⟩

end Machine8086
