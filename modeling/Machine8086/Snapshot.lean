import Machine8086.Cpu
import Machine8086.Decimal.Shortest
import Machine8086.Json
import Machine8086.Text.Quoted

/-!
# Snapshots

A snapshot is a JSON value with the processor state, a version and the name of the system. Reading
one back checks version and system first and then the registers. The state may be an object, whose
members are checked in the order of their names before any member is missed, or an array of the
values in order; so may the flags.
-/

namespace Machine8086

/-- What a value in a snapshot should have been. -/
inductive Expected where
  | word
  | boolean
  | cpu
  | flags
  deriving DecidableEq, Repr

namespace Expected

/-- The expected kind of value in words. -/
def text : Expected → String
  | word => "u16"
  | boolean => "a boolean"
  | cpu => "struct CpuState"
  | flags => "struct Flags"

end Expected

/-- Why a snapshot is refused. -/
inductive SnapshotError where
  | missing (name : String)
  | unsupportedVersion (version : Nat)
  | foreignSystem
  | wrongKind (found : Json) (expected : Expected)
  | outOfRange (found : Int) (expected : Expected)
  /-- An array holds too few elements. -/
  | tooShort (length : Nat) (expected : Expected) (wanted : Nat)
  /-- An array holds too many elements. -/
  | tooLong (length : Nat)

/-- Numbers from `0.00001` up to below `10 ^ 16` are written without an exponent. -/
def numberStyle : Decimal.Style := ⟨-4, 16⟩

/-- The kind and, for a scalar, the value of a JSON value in words. -/
def Json.description : Json → String
  | null => "null"
  | bool value => "boolean `" ++ (if value then "true" else "false") ++ "`"
  | integer value => "integer `" ++ integerText value ++ "`"
  | float value => "floating point `" ++ Decimal.floatText numberStyle value ++ "`"
  | text value => "string " ++ Text.quoted value
  | array _ => "sequence"
  | object _ => "map"
where
  integerText (value : Int) : String :=
    (if value < 0 then "-" else "") ++ Numeral.decimal value.natAbs

/-- The wording of a refusal. -/
def SnapshotError.message : SnapshotError → String
  | missing name => "missing field `" ++ name ++ "`"
  | unsupportedVersion version => "unsupported snapshot version " ++ Numeral.decimal version
  | foreignSystem => "snapshot is not from sim86"
  | wrongKind found expected =>
    "invalid type: " ++ found.description ++ ", expected " ++ expected.text
  | outOfRange found expected =>
    "invalid value: " ++ (Json.integer found).description ++ ", expected " ++ expected.text
  | tooShort length expected wanted =>
    "invalid length " ++ Numeral.decimal length ++ ", expected " ++ expected.text ++ " with " ++
      Numeral.decimal wanted ++ " elements"
  | tooLong length =>
    "invalid length " ++ Numeral.decimal length ++ ", expected fewer elements in array"

namespace Snapshot

/-- Version of the format. -/
def version : Nat := 1

/-- Name of the system. -/
def system : String := "sim86"

/-- Reads a word. -/
def word : Json → Except SnapshotError UInt16
  | .integer value =>
    if 0 ≤ value ∧ value < 65536 then .ok (UInt16.ofNat value.toNat)
    else .error (.outOfRange value .word)
  | other => .error (.wrongKind other .word)

/-- Reads a truth value. -/
def boolean : Json → Except SnapshotError Bool
  | .bool value => .ok value
  | other => .error (.wrongKind other .boolean)

/-- A member of a record: its name and how its value is stored into the record. -/
structure Member (α : Type) where
  name : String
  store : Json → α → Except SnapshotError α

/-- Stores the values of object members in the order given; members of other names are ignored. -/
def storeMembers {α : Type} (shape : List (Member α)) :
    List (String × Json) → α → Except SnapshotError α
  | [], record => .ok record
  | (name, value) :: rest, record =>
    match shape.find? (·.name == name) with
    | none => storeMembers shape rest record
    | some member => do storeMembers shape rest (← member.store value record)

/-- Stores the values of array elements in the order of the members; `length` is that of the whole
array. -/
def storeElements {α : Type} (expected : Expected) (shape : List (Member α)) (length : Nat) :
    List (Member α) → List Json → α → Except SnapshotError α
  | [], [], record => .ok record
  | [], _ :: _, _ => .error (.tooLong length)
  | _ :: _, [], _ => .error (.tooShort length expected shape.length)
  | member :: members, value :: values, record => do
    storeElements expected shape length members values (← member.store value record)

/-- Reads a record from an object with all its members or from an array of their values. -/
def record {α : Type} (expected : Expected) (shape : List (Member α)) (blank : α) :
    Json → Except SnapshotError α
  | .object members => do
    -- what is there is checked before anything is missed
    let result ← storeMembers shape members blank
    match shape.find? fun member => members.lookup member.name |>.isNone with
    | some member => .error (.missing member.name)
    | none => .ok result
  | .array elements => storeElements expected shape elements.length shape elements blank
  | other => .error (.wrongKind other expected)

/-- The members of the flags. -/
def flagMembers : List (Member Flags) :=
  [⟨"zero", fun value flags => return { flags with zero := ← boolean value }⟩,
    ⟨"sign", fun value flags => return { flags with sign := ← boolean value }⟩]

/-- Reads flags. -/
def flags : Json → Except SnapshotError Flags := record .flags flagMembers {}

/-- The members of the processor state. -/
def cpuMembers : List (Member Cpu) :=
  [⟨"ax", fun value cpu => return { cpu with ax := ← word value }⟩,
    ⟨"bx", fun value cpu => return { cpu with bx := ← word value }⟩,
    ⟨"cx", fun value cpu => return { cpu with cx := ← word value }⟩,
    ⟨"dx", fun value cpu => return { cpu with dx := ← word value }⟩,
    ⟨"sp", fun value cpu => return { cpu with sp := ← word value }⟩,
    ⟨"bp", fun value cpu => return { cpu with bp := ← word value }⟩,
    ⟨"si", fun value cpu => return { cpu with si := ← word value }⟩,
    ⟨"di", fun value cpu => return { cpu with di := ← word value }⟩,
    ⟨"ip", fun value cpu => return { cpu with ip := ← word value }⟩,
    ⟨"flags", fun value cpu => return { cpu with flags := ← flags value }⟩]

/-- Reads a processor state. -/
def cpu : Json → Except SnapshotError Cpu := record .cpu cpuMembers {}

/-- Reads a snapshot. -/
def read (snapshot : Json) : Except SnapshotError Cpu := do
  -- a version that is no natural number counts as missing
  match (snapshot.member? "version").bind Json.natural? with
  | none => .error (.missing "version")
  | some found => if found ≠ version then .error (.unsupportedVersion found)
  if (snapshot.member? "system").bind Json.text? ≠ some system then .error .foreignSystem
  match snapshot.member? "registers" with
  | none => .error (.missing "registers")
  | some registers => cpu registers

/-- The flags as JSON. -/
def ofFlags (flags : Flags) : Json :=
  .ofMembers [("zero", .bool flags.zero), ("sign", .bool flags.sign)]

/-- The processor state as JSON. -/
def ofCpu (cpu : Cpu) : Json :=
  .ofMembers (cpu.words.map (fun (name, value) => (name, .integer value.toNat)) ++
    [("flags", ofFlags cpu.flags)])

/-- The snapshot of a processor state. -/
def ofState (cpu : Cpu) : Json :=
  .ofMembers [("version", .integer version), ("system", .text system), ("registers", ofCpu cpu)]

end Snapshot

end Machine8086
