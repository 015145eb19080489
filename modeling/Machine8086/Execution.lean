import Machine8086.Cpu
import Machine8086.Instruction
import Machine8086.Memory

/-!
# Execution

What an executed instruction does is an `Effect`: the flags it sets, the one place it stores to and
the jump it takes. `effect` computes it from memory and processor without changing either, and
`Effect.onCpu` and `Effect.onMemory` carry it out. The instruction pointer of the processor already
stands past the instruction.
-/

namespace Machine8086

/-- A value stored to a register or to memory. -/
inductive Store where
  | register (r : Register) (value : UInt16)
  | memory (address : UInt16) (width : Width) (value : UInt16)
  deriving DecidableEq, Repr

/-- What one instruction does. -/
structure Effect where
  flags : Option Flags := none
  store : Option Store := none
  jump : Option UInt16 := none
  deriving DecidableEq, Repr, Inhabited

/-- Why an instruction cannot be executed. -/
inductive ExecuteError where
  /-- There is no execution model for the operation with such operands. -/
  | unimplemented (operation : Operation)
  /-- A data operation between two memory operands, which no encoding produces. -/
  | memoryToMemory
  deriving DecidableEq, Repr

/-- The wording of an execution error. -/
def ExecuteError.message : ExecuteError → String
  | unimplemented operation => "execution of '" ++ operation.mnemonic ++ "' is not implemented"
  | memoryToMemory => "memory to memory operands have no width"

namespace Effect

/-- Carries out an effect on the processor. -/
def onCpu (e : Effect) (c : Cpu) : Cpu :=
  let c := match e.flags with
    | some flags => { c with flags := flags }
    | none => c
  let c := match e.store with
    | some (.register r value) => c.write r value
    | _ => c
  match e.jump with
  | some target => { c with ip := target }
  | none => c

/-- Carries out an effect on memory. -/
def onMemory (e : Effect) (m : Memory) : Memory :=
  match e.store with
  -- a byte is stored from the low half of the value
  | some (.memory address .byte value) => m.write address value.toUInt8
  | some (.memory address .word value) => m.writeWord address value
  | _ => m

end Effect

/-- The value in memory at the given width. -/
def Memory.readWide (m : Memory) (width : Width) (address : UInt16) : UInt16 :=
  match width with
  | .byte => (m.read address).toUInt16
  | .word => m.readWord address

/-- The value of a source operand, cut to the given width. -/
def sourceValue (m : Memory) (c : Cpu) (width : Width) (source : Source) : UInt16 :=
  width.truncate <| match source with
    | .register r => c.read r
    | .memory operand => m.readWide width (c.effectiveAddress operand)
    | .immediate imm => imm.read

/-- Storing `value` to a destination operand. -/
def storeTo (c : Cpu) (width : Width) (value : UInt16) : Operand → Store
  | .register r => .register r value
  | .memory operand => .memory (c.effectiveAddress operand) width value

/-- The effect of copying the source to the destination. -/
def moveEffect (m : Memory) (c : Cpu) (destination : Operand) (source : Source) (width : Width) :
    Effect :=
  { store := some (storeTo c width (sourceValue m c width source) destination) }

/-- The effect of setting the flags only. -/
def compareEffect (width : Width) (result : UInt16) : Effect :=
  { flags := some (.ofResult width result) }

/-- The effect of setting the flags and storing an arithmetic result in the destination. -/
def arithmeticEffect (c : Cpu) (destination : Operand) (width : Width) (result : UInt16) : Effect :=
  { flags := some (.ofResult width result), store := some (storeTo c width result destination) }

/-- Destination plus source, at a width. -/
def sumOf (m : Memory) (c : Cpu) (destination : Operand) (source : Source) (width : Width) :
    UInt16 :=
  width.truncate (sourceValue m c width destination.toSource + sourceValue m c width source)

/-- Destination minus source, at a width. -/
def differenceOf (m : Memory) (c : Cpu) (destination : Operand) (source : Source) (width : Width) :
    UInt16 :=
  width.truncate (sourceValue m c width destination.toSource - sourceValue m c width source)

/-- The width of a pair of operands that can be executed. -/
def Operands.executedWidth (operands : Operands) : Except ExecuteError Width :=
  match operands.width? with
  | some width => .ok width
  | none => .error .memoryToMemory

/-- The effect of an instruction. -/
def effect (m : Memory) (c : Cpu) (i : Instruction) : Except ExecuteError Effect :=
  match i.operation, i.operands with
  | .mov, .pair destination source =>
    i.operands.executedWidth.map fun width => moveEffect m c destination source width
  | .add, .pair destination source =>
    i.operands.executedWidth.map fun width =>
      arithmeticEffect c destination width (sumOf m c destination source width)
  | .sub, .pair destination source =>
    i.operands.executedWidth.map fun width =>
      arithmeticEffect c destination width (differenceOf m c destination source width)
  | .cmp, .pair destination source =>
    i.operands.executedWidth.map fun width =>
      compareEffect width (differenceOf m c destination source width)
  | .jne, .relative offset =>
    .ok { jump := if c.flags.zero then none else some (c.ip + offset.toInt16.toUInt16) }
  | operation, _ => .error (.unimplemented operation)

/-- Executes an instruction. -/
def execute (m : Memory) (c : Cpu) (i : Instruction) : Except ExecuteError (Memory × Cpu) :=
  (effect m c i).map fun e => (e.onMemory m, e.onCpu c)

end Machine8086
