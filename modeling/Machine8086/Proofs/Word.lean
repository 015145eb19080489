import Mathlib
import Machine8086.Cpu
import Machine8086.Memory

/-!
# Words and their bytes

The shifts and masks that take words apart and put them together, as arithmetic on numbers below
65536. `toNat_high_or_low` is the one equation for putting a high and a low half together; reading
words from memory, immediate words and writes to byte registers all rest on it.
-/

namespace Machine8086

/-- Number of bits of a value of this width. -/
def Width.bits : Width → Nat
  | byte => 8
  | word => 16

/-- The bytes of a word, low byte first. -/
def wordBytes (value : UInt16) : List UInt8 :=
  [UInt8.ofNat (value.toNat % 256), UInt8.ofNat (value.toNat / 256)]

@[simp] theorem length_wordBytes (value : UInt16) : (wordBytes value).length = 2 := rfl

/-- A high half shifted into place and a low half make up a word. -/
theorem toNat_high_or_low {high low : UInt16} (hhigh : high.toNat < 256) (hlow : low.toNat < 256) :
    ((high <<< 8) ||| low).toNat = 256 * high.toNat + low.toNat := by
  have hshift : (high <<< 8).toNat = high.toNat <<< 8 := by
    -- nothing is shifted out
    rw [UInt16.toNat_shiftLeft, show UInt16.toNat 8 % 16 = 8 from rfl]
    apply Nat.mod_eq_of_lt
    rw [Nat.shiftLeft_eq]
    omega
  rw [UInt16.toNat_or, hshift, ← Nat.shiftLeft_add_eq_or_of_lt hlow, Nat.shiftLeft_eq]
  omega

theorem toNat_joined_bytes (high low : UInt8) :
    ((high.toUInt16 <<< 8) ||| low.toUInt16).toNat = 256 * high.toNat + low.toNat :=
  toNat_high_or_low high.toNat_lt low.toNat_lt

/-- Two bytes are those of a word exactly when they make it up. -/
theorem joined_bytes_eq_iff (high low : UInt8) (value : UInt16) :
    (high.toUInt16 <<< 8) ||| low.toUInt16 = value ↔ [low, high] = wordBytes value := by
  have hhigh := high.toNat_lt
  have hlow := low.toNat_lt
  have hvalue := value.toNat_lt
  have hmod : (UInt8.ofNat (value.toNat % 256)).toNat = value.toNat % 256 :=
    UInt8.toNat_ofNat_of_lt' (Nat.mod_lt _ (by decide))
  have hdiv : (UInt8.ofNat (value.toNat / 256)).toNat = value.toNat / 256 :=
    UInt8.toNat_ofNat_of_lt' (Nat.div_lt_of_lt_mul hvalue)
  rw [← UInt16.toNat_inj, toNat_joined_bytes, wordBytes, List.cons.injEq, List.cons.injEq,
    ← UInt8.toNat_inj, ← UInt8.toNat_inj, hmod, hdiv]
  constructor
  · intro h
    exact ⟨by omega, by omega, rfl⟩
  · rintro ⟨h₁, h₂, -⟩
    omega

theorem toNat_shiftRight_eight (value : UInt16) : (value >>> 8).toNat = value.toNat / 256 := by
  rw [UInt16.toNat_shiftRight, show UInt16.toNat 8 % 16 = 8 from rfl, Nat.shiftRight_eq_div_pow]

theorem toNat_lowHalf (word : UInt16) : (lowHalf word).toNat = word.toNat % 256 := by
  rw [lowHalf, UInt16.toNat_and]
  exact Nat.and_two_pow_sub_one_eq_mod word.toNat 8

theorem toNat_highHalf (word : UInt16) : (highHalf word).toNat = word.toNat / 256 :=
  toNat_shiftRight_eight word

theorem and_high_mask (word : UInt16) : (word &&& 0xFF00 : UInt16) = highHalf word <<< 8 := by
  have hword := word.toNat_lt
  have hdiv : (word.toNat &&& 0xFF00) / 2 ^ 8 = word.toNat / 2 ^ 8 &&& 0xFF :=
    Nat.and_div_two_pow
  have hmod : (word.toNat &&& 0xFF00) % 2 ^ 8 = word.toNat % 2 ^ 8 &&& 0 :=
    Nat.and_mod_two_pow
  have hmask : word.toNat / 2 ^ 8 &&& 0xFF = word.toNat / 2 ^ 8 % 2 ^ 8 :=
    Nat.and_two_pow_sub_one_eq_mod _ 8
  have hhigh : (highHalf word).toNat < 256 := by
    rw [toNat_highHalf]
    omega
  have hlow : UInt16.toNat 0 < 256 := by decide
  have hjoin := toNat_high_or_low hhigh hlow
  rw [UInt16.or_zero, toNat_highHalf] at hjoin
  rw [Nat.and_zero] at hmod
  rw [← UInt16.toNat_inj, hjoin, UInt16.toNat_and]
  show word.toNat &&& 0xFF00 = 256 * (word.toNat / 256) + 0
  omega

theorem toNat_withLowHalf (word value : UInt16) :
    (withLowHalf word value).toNat = 256 * (word.toNat / 256) + value.toNat % 256 := by
  have hword := word.toNat_lt
  rw [withLowHalf, and_high_mask, toNat_high_or_low, toNat_highHalf, toNat_lowHalf]
  · rw [toNat_highHalf]
    omega
  · rw [toNat_lowHalf]
    omega

theorem toNat_withHighHalf (word value : UInt16) :
    (withHighHalf word value).toNat = 256 * (value.toNat % 256) + word.toNat % 256 := by
  rw [withHighHalf, UInt16.or_comm, toNat_high_or_low, toNat_lowHalf, toNat_lowHalf]
  · rw [toNat_lowHalf]
    omega
  · rw [toNat_lowHalf]
    omega

end Machine8086
