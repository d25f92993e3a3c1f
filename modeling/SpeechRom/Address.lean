import SpeechRom.Text.Digits

/-!
Bit addresses: 32-bit numbers that count bits. Byte `b` starts at bit `8 * b`, and all arithmetic
wraps around the 32-bit space.
-/

namespace SpeechRom

/-- An address counted in bits. -/
structure BitAddress where
  index : UInt32
deriving DecidableEq, Repr, Inhabited

namespace BitAddress

instance : LT BitAddress := ⟨fun left right => left.index < right.index⟩

instance : LE BitAddress := ⟨fun left right => left.index ≤ right.index⟩

instance (left right : BitAddress) : Decidable (left < right) :=
  inferInstanceAs (Decidable (left.index < right.index))

instance (left right : BitAddress) : Decidable (left ≤ right) :=
  inferInstanceAs (Decidable (left.index ≤ right.index))

instance : Ord BitAddress := ⟨fun left right => compare left.index right.index⟩

instance : HAdd BitAddress UInt32 BitAddress := ⟨fun address bits => ⟨address.index + bits⟩⟩

instance : HSub BitAddress UInt32 BitAddress := ⟨fun address bits => ⟨address.index - bits⟩⟩

/-- The address as an unbounded number. -/
def toNat (address : BitAddress) : Nat := address.index.toNat

/-- The signed number of bits from one address up to another. -/
def distance (address base : BitAddress) : Int :=
  (address.toNat : Int) - (base.toNat : Int)

/-- The first bit of a byte. The bits of the byte number that do not fit are lost. -/
def ofByte (byte : UInt32) : BitAddress := ⟨byte <<< 3⟩

/-- The byte that holds the bit. -/
def byte (address : BitAddress) : UInt32 := address.index >>> 3

/-- The place of the bit in its byte, counted from the most significant bit. -/
def bit (address : BitAddress) : UInt32 := address.index &&& 7

/-- Whether the bit is the first of its byte. -/
def isAligned (address : BitAddress) : Bool := address.bit == 0

/-- How many bits lie before the next byte boundary; none when the address is on one. -/
def bitsToBoundary (address : BitAddress) : UInt32 := (0 - address.index) &&& 7

/-- The page of the address: the top four bits of the 16-bit byte address, in the upper half
of a byte.
-/
def page (address : BitAddress) : UInt8 := ((address.index >>> 11) &&& 0xF0).toUInt8

/-- Byte and bit in hexadecimal with a point between them, as in `1002.4`. -/
def digits (address : BitAddress) : String :=
  Text.hexPadded 4 address.byte.toNat ++ "." ++ Text.hex address.bit.toNat

/-- The address with a dollar sign, as in `$1002.4`. -/
def text (address : BitAddress) : String := "$" ++ address.digits

end BitAddress

end SpeechRom
