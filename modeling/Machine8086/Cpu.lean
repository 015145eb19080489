import Machine8086.Operand

/-!
# Processor state

Eight general word registers, the instruction pointer and the two modelled flags. A byte register
is a half of one of the first four word registers: it is read zero-extended, and a write to it
leaves the other half alone.
-/

namespace Machine8086

/-- The flags that arithmetic sets. -/
structure Flags where
  zero : Bool := false
  sign : Bool := false
  deriving DecidableEq, Repr, Inhabited

namespace Flags

/-- The letters of the flags that are set. -/
def letters (flags : Flags) : String :=
  (if flags.zero then "Z" else "") ++ (if flags.sign then "S" else "")

/-- The flags that a result of the given width leaves. -/
def ofResult (width : Width) (result : UInt16) : Flags :=
  ⟨result == 0, result &&& width.signBit != 0⟩

end Flags

/-- The registers and flags. -/
structure Cpu where
  ax : UInt16 := 0
  bx : UInt16 := 0
  cx : UInt16 := 0
  dx : UInt16 := 0
  sp : UInt16 := 0
  bp : UInt16 := 0
  si : UInt16 := 0
  di : UInt16 := 0
  ip : UInt16 := 0
  flags : Flags := {}
  deriving DecidableEq, Repr, Inhabited

/-- The low half of a word. -/
def lowHalf (word : UInt16) : UInt16 := word &&& 0x00FF

/-- The high half of a word, moved down. -/
def highHalf (word : UInt16) : UInt16 := word >>> 8

/-- A word with its low half replaced by the low half of `value`. -/
def withLowHalf (word value : UInt16) : UInt16 := (word &&& 0xFF00) ||| lowHalf value

/-- A word with its high half replaced by the low half of `value`. -/
def withHighHalf (word value : UInt16) : UInt16 := lowHalf word ||| (lowHalf value <<< 8)

namespace Cpu

/-- The nine words with their names, in the order in which they are shown. -/
def words (c : Cpu) : List (String × UInt16) :=
  [("ax", c.ax), ("bx", c.bx), ("cx", c.cx), ("dx", c.dx), ("sp", c.sp), ("bp", c.bp),
    ("si", c.si), ("di", c.di), ("ip", c.ip)]

/-- The value of a register. -/
def read (c : Cpu) : Register → UInt16
  | .al => lowHalf c.ax | .ah => highHalf c.ax | .ax => c.ax
  | .cl => lowHalf c.cx | .ch => highHalf c.cx | .cx => c.cx
  | .dl => lowHalf c.dx | .dh => highHalf c.dx | .dx => c.dx
  | .bl => lowHalf c.bx | .bh => highHalf c.bx | .bx => c.bx
  | .sp => c.sp | .bp => c.bp | .si => c.si | .di => c.di

/-- Replaces the value of a register; a byte register takes the low half of `value`. -/
def write (c : Cpu) (r : Register) (value : UInt16) : Cpu :=
  match r with
  | .al => { c with ax := withLowHalf c.ax value }
  | .ah => { c with ax := withHighHalf c.ax value }
  | .ax => { c with ax := value }
  | .cl => { c with cx := withLowHalf c.cx value }
  | .ch => { c with cx := withHighHalf c.cx value }
  | .cx => { c with cx := value }
  | .dl => { c with dx := withLowHalf c.dx value }
  | .dh => { c with dx := withHighHalf c.dx value }
  | .dx => { c with dx := value }
  | .bl => { c with bx := withLowHalf c.bx value }
  | .bh => { c with bx := withHighHalf c.bx value }
  | .bx => { c with bx := value }
  | .sp => { c with sp := value }
  | .bp => { c with bp := value }
  | .si => { c with si := value }
  | .di => { c with di := value }

/-- The sum of the registers of a base. -/
def baseSum (c : Cpu) (base : AddressBase) : UInt16 :=
  (base.registers.map c.read).foldl (· + ·) 0

/-- The address of a memory operand; the sum wraps at the top of the address space. -/
def effectiveAddress (c : Cpu) : MemoryOperand → UInt16
  | .direct address => address
  | .based base displacement => c.baseSum base + displacement.toUInt16

end Cpu

end Machine8086
