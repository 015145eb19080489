import Machine8086.Numeral.Reading

/-!
# Load addresses

A load address is a numeral below 65536, hexadecimal behind a marker and decimal without one. A text
that is refused is named in the error, with the reason of the numeral's reader.
-/

namespace Machine8086

namespace CommandLine

/-- A text that is not a load address. -/
structure AddressError where
  text : String
  cause : Numeral.ReadError
  deriving DecidableEq, Repr

/-- The wording of an address error. -/
def AddressError.message (e : AddressError) : String :=
  "invalid address '" ++ e.text ++ "': " ++ e.cause.message

/-- The base that an address is written in, and its numeral behind the marker. -/
def addressParts : List Char → Nat × List Char
  | '0' :: 'x' :: digits => (16, digits)
  | '0' :: 'X' :: digits => (16, digits)
  | digits => (10, digits)

/-- Reads a load address. -/
def readAddress (text : String) : Except AddressError UInt16 :=
  let (base, digits) := addressParts text.toList
  ((Numeral.readBelow 65536 base digits).map UInt16.ofNat).mapError (AddressError.mk text)

end CommandLine

end Machine8086
