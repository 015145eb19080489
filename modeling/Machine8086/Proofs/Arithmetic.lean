import Machine8086.Proofs.Word

/-!
# Arithmetic at a width

The arithmetic of the processor in terms of numbers: cutting a word to a width takes a remainder
(`Width.toNat_truncate`), sums and differences are taken modulo a power of two, an address or a
jump adds a signed offset modulo 65536 (`toNat_add_signed`), and the flags tell whether a result is
zero and whether its top bit is set (`Flags.ofResult_eq`).
-/

namespace Machine8086

/-- The flags of a result: whether it is zero, and its top bit. -/
def flagsOf (w : Width) (result : Nat) : Flags :=
  ⟨decide (result = 0), result.testBit (w.bits - 1)⟩

namespace Width

theorem two_pow_bits_dvd (w : Width) : 2 ^ w.bits ∣ 65536 := by
  cases w <;> decide

theorem toNat_mask (w : Width) : w.mask.toNat = 2 ^ w.bits - 1 := by
  cases w <;> rfl

theorem toNat_signBit (w : Width) : w.signBit.toNat = 2 ^ (w.bits - 1) := by
  cases w <;> rfl

theorem toNat_truncate (w : Width) (value : UInt16) :
    (w.truncate value).toNat = value.toNat % 2 ^ w.bits := by
  rw [truncate, UInt16.toNat_and, toNat_mask, Nat.and_two_pow_sub_one_eq_mod]

theorem toNat_truncate_lt (w : Width) (value : UInt16) :
    (w.truncate value).toNat < 2 ^ w.bits := by
  rw [toNat_truncate]
  exact Nat.mod_lt _ (Nat.two_pow_pos _)

theorem toNat_truncate_of_lt {w : Width} {value : UInt16} (h : value.toNat < 2 ^ w.bits) :
    (w.truncate value).toNat = value.toNat := by
  rw [toNat_truncate, Nat.mod_eq_of_lt h]

theorem truncate_word (value : UInt16) : word.truncate value = value :=
  UInt16.toNat_inj.1 (toNat_truncate_of_lt value.toNat_lt)

theorem toNat_truncate_add (w : Width) (a b : UInt16) :
    (w.truncate (a + b)).toNat = (a.toNat + b.toNat) % 2 ^ w.bits := by
  rw [toNat_truncate, UInt16.toNat_add]
  exact Nat.mod_mod_of_dvd _ w.two_pow_bits_dvd

theorem toNat_truncate_sub (w : Width) (a b : UInt16) :
    ((w.truncate (a - b)).toNat : Int) = ((a.toNat : Int) - b.toNat) % 2 ^ w.bits := by
  have ha := a.toNat_lt
  have hb := b.toNat_lt
  rw [toNat_truncate, UInt16.toNat_sub]
  cases w with
  | byte =>
    show (((2 ^ 16 - b.toNat + a.toNat) % 2 ^ 16 % 2 ^ 8 : Nat) : Int) = _ % 2 ^ 8
    omega
  | word =>
    show (((2 ^ 16 - b.toNat + a.toNat) % 2 ^ 16 % 2 ^ 16 : Nat) : Int) = _ % 2 ^ 16
    omega

end Width

/-- Signed values keep their remainder when they are taken as words. -/
theorem toNat_toUInt16_signed (d : Int16) : (d.toUInt16.toNat : Int) = d.toInt % 65536 := by
  have hword := d.toUInt16.toNat_lt
  have hint : d.toInt = Int.bmod d.toUInt16.toNat 65536 := BitVec.toInt_eq_toNat_bmod d.toBitVec
  have hmod : Int.bmod d.toUInt16.toNat 65536 % 65536 = d.toUInt16.toNat % 65536 := Int.bmod_emod
  rw [hint, hmod]
  omega

/-- A signed offset is added modulo 65536. -/
theorem toNat_add_signed (word : UInt16) (d : Int16) :
    ((word + d.toUInt16).toNat : Int) = (word.toNat + d.toInt) % 65536 := by
  have hd := toNat_toUInt16_signed d
  rw [UInt16.toNat_add]
  -- both sides are the sum of the same two numbers modulo 65536
  omega

theorem toNat_foldl_add (words : List UInt16) (start : UInt16) :
    (words.foldl (· + ·) start).toNat = (start.toNat + (words.map UInt16.toNat).sum) % 65536 := by
  induction words generalizing start with
  | nil =>
    have hstart := start.toNat_lt
    rw [List.foldl_nil, List.map_nil, List.sum_nil]
    omega
  | cons word words ih =>
    rw [List.foldl_cons, ih, UInt16.toNat_add, List.map_cons, List.sum_cons]
    omega

/-- The mask of the top bit picks it out. -/
theorem and_signBit_ne_zero (w : Width) (result : UInt16) :
    (result &&& w.signBit != 0) = result.toNat.testBit (w.bits - 1) := by
  have htoNat : (result &&& w.signBit).toNat =
      (result.toNat.testBit (w.bits - 1)).toNat * 2 ^ (w.bits - 1) := by
    rw [UInt16.toNat_and, Width.toNat_signBit, Nat.and_two_pow]
  -- the masked value is the top bit times its place value
  cases hbit : result.toNat.testBit (w.bits - 1) with
  | false =>
    have hzero : result &&& w.signBit = 0 := by
      rw [← UInt16.toNat_inj, htoNat, hbit, Bool.toNat_false, Nat.zero_mul]
      rfl
    rw [hzero]
    rfl
  | true =>
    rw [bne_iff_ne]
    intro hzero
    rw [hzero, hbit, Bool.toNat_true, Nat.one_mul] at htoNat
    exact absurd htoNat.symm (Nat.two_pow_pos _).ne'

theorem Flags.ofResult_eq (w : Width) (result : UInt16) :
    Flags.ofResult w result = flagsOf w result.toNat := by
  have hzero : (result == 0) = decide (result.toNat = 0) := by
    rw [Bool.eq_iff_iff, beq_iff_eq, decide_eq_true_iff, ← UInt16.toNat_inj]
    rfl
  rw [ofResult, flagsOf, hzero, and_signBit_ne_zero]

end Machine8086
