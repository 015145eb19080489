/-!
# Operand widths and general registers

The sixteen register names of the processor. Instructions carry a register as a three-bit code
which, together with the operand width, selects one of them (`Register.ofCode`).
-/

namespace Machine8086

/-- Width of an operand. -/
inductive Width where
  | byte
  | word
  deriving DecidableEq, Repr, Inhabited

namespace Width

/-- The width that a `w` bit of an instruction stands for. -/
def ofBit : Bool → Width
  | false => byte
  | true => word

/-- The bits that a value of this width occupies. -/
def mask : Width → UInt16
  | byte => 0x00FF
  | word => 0xFFFF

/-- The top bit of a value of this width. -/
def signBit : Width → UInt16
  | byte => 0x0080
  | word => 0x8000

/-- `value` cut to this width. -/
def truncate (width : Width) (value : UInt16) : UInt16 := value &&& width.mask

/-- Capitalised name, as memory writes are reported. -/
def name : Width → String
  | byte => "Byte"
  | word => "Word"

/-- Size keyword that qualifies an immediate stored to memory. -/
def keyword : Width → String
  | byte => "byte"
  | word => "word"

end Width

/-- The general registers: low halves, high halves, then the eight word registers. -/
inductive Register where
  | al | cl | dl | bl
  | ah | ch | dh | bh
  | ax | cx | dx | bx
  | sp | bp | si | di
  deriving DecidableEq, Repr, Inhabited

/-! Fields of two, three and four bits are written as numerals. -/

instance neZeroFour : @NeZero Nat Zero.ofOfNat0 4 := ⟨Nat.succ_ne_zero 3⟩

instance neZeroEight : @NeZero Nat Zero.ofOfNat0 8 := ⟨Nat.succ_ne_zero 7⟩

instance neZeroSixteen : @NeZero Nat Zero.ofOfNat0 16 := ⟨Nat.succ_ne_zero 15⟩

namespace Register

/-- The byte register with the given three-bit code. -/
def byteOfCode : Fin 8 → Register
  | 0 => al | 1 => cl | 2 => dl | 3 => bl
  | 4 => ah | 5 => ch | 6 => dh | 7 => bh

/-- The word register with the given three-bit code. -/
def wordOfCode : Fin 8 → Register
  | 0 => ax | 1 => cx | 2 => dx | 3 => bx
  | 4 => sp | 5 => bp | 6 => si | 7 => di

/-- The register of the given width and three-bit code. -/
def ofCode : Width → Fin 8 → Register
  | .byte => byteOfCode
  | .word => wordOfCode

/-- All registers, byte registers first, each group in the order of its codes. -/
def all : List Register :=
  [al, cl, dl, bl, ah, ch, dh, bh, ax, cx, dx, bx, sp, bp, si, di]

/-- The three-bit code of a register. -/
def code : Register → Fin 8
  | al | ax => 0
  | cl | cx => 1
  | dl | dx => 2
  | bl | bx => 3
  | ah | sp => 4
  | ch | bp => 5
  | dh | si => 6
  | bh | di => 7

/-- The width of a register. -/
def width : Register → Width
  | al | cl | dl | bl | ah | ch | dh | bh => .byte
  | ax | cx | dx | bx | sp | bp | si | di => .word

/-- Position in `all`. -/
def ordinal (r : Register) : Nat :=
  match r.width with
  | .byte => r.code.val
  | .word => r.code.val + 8

/-- Assembly name. -/
def name : Register → String
  | al => "al" | cl => "cl" | dl => "dl" | bl => "bl"
  | ah => "ah" | ch => "ch" | dh => "dh" | bh => "bh"
  | ax => "ax" | cx => "cx" | dx => "dx" | bx => "bx"
  | sp => "sp" | bp => "bp" | si => "si" | di => "di"

@[simp] theorem width_ofCode (w : Width) (code : Fin 8) : (ofCode w code).width = w := by
  revert code
  cases w <;> decide

@[simp] theorem code_ofCode (w : Width) (code : Fin 8) : (ofCode w code).code = code := by
  revert code
  cases w <;> decide

@[simp] theorem ofCode_code (r : Register) : ofCode r.width r.code = r := by
  cases r <;> rfl

end Register

end Machine8086
