import Machine8086.Proofs.Word

/-!
# Runs of bytes in memory

Reading and writing several bytes from an address on. A run is read piece by piece
(`readBytes_add`). Writing a run that does not wrap around onto itself has one equation
(`read_writeBytes`), by the distance of an address from the first one; hence the run is read back
(`readBytes_writeBytes`), and runs that share no address are written in any order
(`writeBytes_comm`).
-/

namespace Machine8086.Memory

theorem readBytes_add (m : Memory) (address : UInt16) (count more : Nat) :
    m.readBytes address (count + more) =
      m.readBytes address count ++ m.readBytes (address + UInt16.ofNat count) more := by
  induction count generalizing address with
  | zero => simp [readBytes]
  | succ count ih =>
    have hnext : address + 1 + UInt16.ofNat count = address + UInt16.ofNat (count + 1) := by
      rw [UInt16.add_assoc, UInt16.ofNat_add, UInt16.add_comm 1]
      rfl
    rw [show count + 1 + more = count + more + 1 by omega, readBytes, readBytes, ih, hnext,
      List.cons_append]

/-- The beginning of a run is a shorter run. -/
theorem readBytes_length_of_append {m : Memory} {address : UInt16} {count : Nat}
    {first rest : List UInt8} (h : m.readBytes address count = first ++ rest) :
    m.readBytes address first.length = first := by
  have hlength : count = first.length + rest.length := by
    rw [← length_readBytes m address count, h, List.length_append]
  -- the run splits at the same place as the list
  rw [hlength, readBytes_add] at h
  exact List.append_inj_left h (length_readBytes ..)

theorem getElem?_readBytes (m : Memory) (address : UInt16) {count i : Nat} (h : i < count) :
    (m.readBytes address count)[i]? = some (m.read (address + UInt16.ofNat i)) := by
  obtain ⟨more, rfl⟩ : ∃ more, count = i + (more + 1) := ⟨count - i - 1, by omega⟩
  rw [readBytes_add, List.getElem?_append_right (by simp), length_readBytes, Nat.sub_self]
  rfl

/-- Memories that agree on two runs of addresses hold the same bytes there. -/
theorem readBytes_congr {m n : Memory} {address other : UInt16} {count : Nat}
    (h : ∀ i < count, m.read (address + UInt16.ofNat i) = n.read (other + UInt16.ofNat i)) :
    m.readBytes address count = n.readBytes other count := by
  apply List.ext_getElem?
  intro i
  by_cases hi : i < count
  · rw [getElem?_readBytes m address hi, getElem?_readBytes n other hi, h i hi]
  · rw [List.getElem?_eq_none (by simpa using hi), List.getElem?_eq_none (by simpa using hi)]

/-- Each byte after writing a run: the byte of the run at that distance, or the old byte. -/
theorem read_writeBytes (m : Memory) (address other : UInt16) {values : List UInt8}
    (h : values.length ≤ addressSpace) :
    (m.writeBytes address values).read other =
      values[(other - address).toNat]?.getD (m.read other) := by
  induction values generalizing m address with
  | nil => rfl
  | cons value values ih =>
    have hlength : values.length < 65536 := h
    rw [writeBytes, ih (m.write address value) (address + 1) (Nat.le_of_lt hlength), read_write]
    have hother := other.toNat_lt
    have haddress := address.toNat_lt
    by_cases he : other = address
    · -- the address before the rest of the run is too far from it to be written again
      have hfar : (other - (address + 1)).toNat = 65535 := by
        rw [he, UInt16.toNat_sub, UInt16.toNat_add, UInt16.toNat_one]
        omega
      have hnone : values[65535]? = none := List.getElem?_eq_none (by omega)
      rw [if_pos he, hfar, hnone, he, UInt16.sub_self]
      rfl
    · have hne : other.toNat ≠ address.toNat := fun e => he (UInt16.toNat_inj.mp e)
      have hnext : (other - address).toNat = (other - (address + 1)).toNat + 1 := by
        rw [UInt16.toNat_sub, UInt16.toNat_sub, UInt16.toNat_add, UInt16.toNat_one]
        omega
      rw [if_neg he, hnext, List.getElem?_cons_succ]

theorem readBytes_writeBytes (m : Memory) (address : UInt16) {values : List UInt8}
    (h : values.length ≤ addressSpace) :
    (m.writeBytes address values).readBytes address values.length = values := by
  apply List.ext_getElem?
  intro i
  by_cases hi : i < values.length
  · have hi' : i < 65536 := Nat.lt_of_lt_of_le hi h
    have hdistance : (address + UInt16.ofNat i - address).toNat = i := by
      rw [UInt16.add_comm, UInt16.add_sub_cancel]
      exact UInt16.toNat_ofNat_of_lt' hi'
    rw [getElem?_readBytes _ _ hi, read_writeBytes _ _ _ h, hdistance,
      List.getElem?_eq_getElem hi]
    rfl
  · rw [List.getElem?_eq_none (by simpa using hi), List.getElem?_eq_none (by simpa using hi)]

/-- Bytes that no address takes from both of two lists are written in any order. -/
theorem writeBytes_comm (m : Memory) {address other : UInt16} {first second : List UInt8}
    (hfirst : first.length ≤ addressSpace) (hsecond : second.length ≤ addressSpace)
    (h : ∀ a : UInt16, first.length ≤ (a - address).toNat ∨ second.length ≤ (a - other).toNat) :
    (m.writeBytes address first).writeBytes other second =
      (m.writeBytes other second).writeBytes address first := by
  refine ext_read fun a => ?_
  rw [read_writeBytes _ _ _ hsecond, read_writeBytes _ _ _ hfirst, read_writeBytes _ _ _ hfirst,
    read_writeBytes _ _ _ hsecond]
  cases h a with
  | inl hnone => rw [List.getElem?_eq_none hnone, Option.getD_none, Option.getD_none]
  | inr hnone => rw [List.getElem?_eq_none hnone, Option.getD_none, Option.getD_none]

end Machine8086.Memory
