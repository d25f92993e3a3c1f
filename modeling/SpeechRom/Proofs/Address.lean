import SpeechRom.Address

/-! Bit addresses as numbers. Sums are taken modulo the size of the address space, which is a
multiple of eight, so byte boundaries survive a wrap around its top.
-/

namespace SpeechRom.BitAddress

theorem ext_toNat {left right : BitAddress} (same : left.toNat = right.toNat) : left = right := by
  obtain ⟨left⟩ := left
  obtain ⟨right⟩ := right
  exact congrArg mk (UInt32.toNat.inj same)

theorem toNat_lt (address : BitAddress) : address.toNat < 4294967296 := address.index.toNat_lt

theorem lt_iff {left right : BitAddress} : left < right ↔ left.toNat < right.toNat :=
  UInt32.lt_iff_toNat_lt

theorem toNat_add (address : BitAddress) (bits : UInt32)
    : (address + bits).toNat = (address.toNat + bits.toNat) % 4294967296 :=
  UInt32.toNat_add address.index bits

theorem toNat_add_of_lt {address : BitAddress} {bits : UInt32}
    (room : address.toNat + bits.toNat < 4294967296)
    : (address + bits).toNat = address.toNat + bits.toNat := by
  rw [toNat_add, Nat.mod_eq_of_lt room]

theorem add_assoc (address : BitAddress) (first second : UInt32)
    : address + first + second = address + (first + second) :=
  congrArg mk (UInt32.add_assoc address.index first second)

@[simp] theorem add_zero (address : BitAddress) : address + (0 : UInt32) = address :=
  congrArg mk (UInt32.add_zero address.index)

theorem add_ofNat (address : BitAddress) (first second : Nat)
    : address + UInt32.ofNat first + UInt32.ofNat second
      = address + UInt32.ofNat (first + second) := by
  rw [add_assoc, UInt32.ofNat_add]

/-- The last of some bits from an address on. -/
theorem add_ofNat_sub_one (address : BitAddress) {count : Nat} (positive : 1 ≤ count)
    : address + UInt32.ofNat count - (1 : UInt32) = address + UInt32.ofNat (count - 1) := by
  rw [UInt32.ofNat_sub positive, UInt32.sub_eq_add_neg, ← add_assoc]
  exact congrArg mk (UInt32.sub_eq_add_neg ..)

/-- The first bit of a byte, as a number. -/
theorem toNat_ofByte (byte : UInt32) : (ofByte byte).toNat = 8 * byte.toNat % 4294967296 := by
  simp only [ofByte, toNat, UInt32.toNat_shiftLeft, UInt32.reduceToNat, Nat.reduceMod,
    Nat.shiftLeft_eq]
  omega

theorem toNat_byte (address : BitAddress) : address.byte.toNat = address.toNat / 8 := by
  simp only [byte, toNat, UInt32.toNat_shiftRight, UInt32.reduceToNat, Nat.reduceMod,
    Nat.shiftRight_eq_div_pow, Nat.reducePow]

theorem toNat_bit (address : BitAddress) : address.bit.toNat = address.toNat % 8 := by
  simp only [bit, toNat, UInt32.toNat_and, UInt32.reduceToNat]
  exact Nat.and_two_pow_sub_one_eq_mod _ 3

theorem toNat_bitsToBoundary (address : BitAddress)
    : address.bitsToBoundary.toNat = (4294967296 - address.toNat) % 8 := by
  have top := address.toNat_lt
  have mask (value : Nat) : value &&& 7 = value % 8 := Nat.and_two_pow_sub_one_eq_mod value 3
  simp only [bitsToBoundary, toNat, UInt32.toNat_and, UInt32.toNat_sub, UInt32.reduceToNat,
    mask] at top ⊢
  omega

/-- An address on a byte boundary is the first bit of its byte. -/
theorem eq_of_byte_eq {left right : BitAddress} (leftAligned : left.toNat % 8 = 0)
    (rightAligned : right.toNat % 8 = 0) (same : left.byte = right.byte)
    : left = right := by
  have bytes := congrArg UInt32.toNat same
  rw [toNat_byte, toNat_byte] at bytes
  exact ext_toNat (by omega)

/-- Bytes begin on byte boundaries, also where the number of the byte does not fit. -/
theorem ofByte_aligned (byte : UInt32) : (ofByte byte).toNat % 8 = 0 := by
  rw [toNat_ofByte]
  omega

/-- The first bits of the 16-bit space do not wrap. -/
theorem toNat_ofByte_of_le {byte : UInt32} (small : byte ≤ 0xFFFF)
    : (ofByte byte).toNat = 8 * byte.toNat := by
  have bound : byte.toNat ≤ 65535 := UInt32.le_iff_toNat_le.mp small
  rw [toNat_ofByte]
  omega

/-- Bytes of the 16-bit space have addresses of their own. -/
theorem ofByte_injective {left right : UInt32} (leftSmall : left ≤ 0xFFFF)
    (rightSmall : right ≤ 0xFFFF) (same : ofByte left = ofByte right)
    : left = right := by
  have addresses := congrArg toNat same
  rw [toNat_ofByte_of_le leftSmall, toNat_ofByte_of_le rightSmall] at addresses
  exact UInt32.toNat.inj (by omega)

/-- Padding ends on a byte boundary, also where it wraps around the top. -/
theorem add_bitsToBoundary_aligned (address : BitAddress)
    : (address + address.bitsToBoundary).toNat % 8 = 0 := by
  have top := address.toNat_lt
  rw [toNat_add, toNat_bitsToBoundary]
  omega

end SpeechRom.BitAddress
