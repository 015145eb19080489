/-!
# Memory

The 65536 bytes that a 16-bit address reaches. Every access wraps at the top of the address space,
so a word at address `0xFFFF` has its high byte at address `0`. A memory is known by what `read`
returns (`Memory.ext_read`), and each operation is described by one equation about `read`.
-/

namespace Machine8086

/-- Number of addresses. -/
def addressSpace : Nat := 65536

theorem toNat_lt_addressSpace (address : UInt16) : address.toNat < addressSpace :=
  address.toNat_lt

/-- A full address space of bytes. -/
structure Memory where
  bytes : ByteArray
  size_bytes : bytes.size = addressSpace

/-- Loading `length` bytes at `start` would run past the top of the address space. -/
structure LoadOverflow where
  start : UInt16
  length : Nat
  deriving DecidableEq, Repr

namespace Memory

/-- Memory that holds zero everywhere. -/
def zero : Memory :=
  ⟨⟨Array.replicate addressSpace 0⟩, by simp [ByteArray.size]⟩

instance : Inhabited Memory := ⟨zero⟩

/-- The byte at an address. -/
def read (m : Memory) (address : UInt16) : UInt8 :=
  m.bytes.get address.toNat (m.size_bytes ▸ toNat_lt_addressSpace address)

/-- Replaces the byte at an address. -/
def write (m : Memory) (address : UInt16) (value : UInt8) : Memory :=
  ⟨m.bytes.set address.toNat value (m.size_bytes ▸ toNat_lt_addressSpace address), by
    change (m.bytes.data.set address.toNat value _).size = addressSpace
    exact (Array.size_set _).trans m.size_bytes⟩

/-- The word at an address, low byte first. -/
def readWord (m : Memory) (address : UInt16) : UInt16 :=
  ((m.read (address + 1)).toUInt16 <<< 8) ||| (m.read address).toUInt16

/-- Replaces the word at an address, low byte first. -/
def writeWord (m : Memory) (address value : UInt16) : Memory :=
  (m.write address value.toUInt8).write (address + 1) (value >>> 8).toUInt8

/-- The `count` bytes from an address on. -/
def readBytes (m : Memory) (address : UInt16) : Nat → List UInt8
  | 0 => []
  | count + 1 => m.read address :: m.readBytes (address + 1) count

/-- Replaces the bytes from an address on. -/
def writeBytes (m : Memory) (address : UInt16) : List UInt8 → Memory
  | [] => m
  | value :: values => (m.write address value).writeBytes (address + 1) values

/-- The byte at a cursor, and the cursor after it. -/
def pullByte (m : Memory) (cursor : UInt16) : UInt8 × UInt16 := (m.read cursor, cursor + 1)

/-- The word at a cursor, and the cursor after it. -/
def pullWord (m : Memory) (cursor : UInt16) : UInt16 × UInt16 := (m.readWord cursor, cursor + 2)

/-- Places a program at `start`; it has to end within the address space. -/
def load (m : Memory) (program : List UInt8) (start : UInt16) : Except LoadOverflow Memory :=
  if start.toNat + program.length ≤ addressSpace then .ok (m.writeBytes start program)
  else .error ⟨start, program.length⟩

theorem read_zero (address : UInt16) : zero.read address = 0 := by
  exact Array.getElem_replicate _

@[simp] theorem read_write_self (m : Memory) (address : UInt16) (value : UInt8) :
    (m.write address value).read address = value := by
  have hbound : address.toNat < m.bytes.size := m.size_bytes ▸ toNat_lt_addressSpace address
  exact Array.getElem_set_self hbound

theorem read_write_of_ne (m : Memory) {address other : UInt16} (value : UInt8)
    (h : other ≠ address) : (m.write address value).read other = m.read other := by
  have hbound : address.toNat < m.bytes.size := m.size_bytes ▸ toNat_lt_addressSpace address
  have hne : address.toNat ≠ other.toNat := fun e => h (UInt16.toNat_inj.mp e.symm)
  exact Array.getElem_set_ne hbound _ hne

/-- The equation of `write`. -/
theorem read_write (m : Memory) (address other : UInt16) (value : UInt8) :
    (m.write address value).read other = if other = address then value else m.read other := by
  by_cases h : other = address
  · subst h
    simp
  · rw [if_neg h, read_write_of_ne m value h]

/-- Memories that read alike are equal. -/
theorem ext_read {m n : Memory} (h : ∀ address, m.read address = n.read address) : m = n := by
  obtain ⟨⟨a⟩, ha⟩ := m
  obtain ⟨⟨b⟩, hb⟩ := n
  have hab : a = b := by
    apply Array.ext
    · exact ha.trans hb.symm
    · intro i hi _
      have hsize : a.size = 65536 := ha
      have hsize' : b.size = 65536 := hb
      have hi' : i < 65536 := hsize ▸ hi
      have hn : (UInt16.ofNat i).toNat = i := UInt16.toNat_ofNat_of_lt' hi'
      have hla : (UInt16.ofNat i).toNat < a.size := by omega
      have hlb : (UInt16.ofNat i).toNat < b.size := by omega
      have e : a[(UInt16.ofNat i).toNat] = b[(UInt16.ofNat i).toNat] := h (UInt16.ofNat i)
      simp only [hn] at e
      exact e
  subst hab
  rfl

@[simp] theorem length_readBytes (m : Memory) (address : UInt16) (count : Nat) :
    (m.readBytes address count).length = count := by
  induction count generalizing address with
  | zero => rfl
  | succ count ih => simp [readBytes, ih]

/-- The text of a memory, which shows only its size. -/
def text (m : Memory) : String :=
  "Memory \x7b size: " ++ Nat.repr m.bytes.size ++ " \x7d"

end Memory

end Machine8086
