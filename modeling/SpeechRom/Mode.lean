import SpeechRom.Address

/-!
The mode register that decoding carries from one instruction to the next: two bits that select
operand widths, two bits that extend the next repeat count, and the page of branch targets.
-/

namespace SpeechRom

/-- The mode register. Bits 0 and 1 are the operand mode, bits 2 and 3 the repeat bits, and
bits 4 to 7 the page.
-/
structure Mode where
  bits : UInt8
deriving DecidableEq, Repr, Inhabited

namespace Mode

/-- All bits clear. -/
def zero : Mode := ⟨0⟩

/-- The mode in which decoding starts at an address: only its page is set. -/
def ofAddress (address : BitAddress) : Mode := ⟨address.page⟩

/-- The two bits that select operand widths. -/
def operandMode (mode : Mode) : UInt8 := mode.bits &&& 0x03

/-- The two upper bits of the next repeat count, in place. -/
def repeatBits (mode : Mode) : UInt8 := mode.bits &&& 0x0C

/-- The page, in the upper half of the byte. -/
def page (mode : Mode) : UInt8 := mode.bits &&& 0xF0

/-- Replaces the page by that of a byte whose upper half holds one. -/
def withPage (mode : Mode) (page : UInt8) : Mode := ⟨(mode.bits &&& 0x0F) ||| (page &&& 0xF0)⟩

/-- Replaces operand mode and repeat bits together. -/
def withLowNibble (mode : Mode) (value : UInt8) : Mode :=
  ⟨(mode.bits &&& 0xF0) ||| (value &&& 0x0F)⟩

/-- Clears the repeat bits, which apply to one instruction only. -/
def withoutRepeatBits (mode : Mode) : Mode := ⟨mode.bits &&& ~~~0x0C⟩

/-- The three parts of the register in words. -/
def text (mode : Mode) : String :=
  "page=" ++ Text.hex (mode.page >>> 4).toNat ++ " rpt=" ++
    Text.binary 2 (mode.repeatBits >>> 2).toNat ++ " mode=" ++
    Text.binary 2 mode.operandMode.toNat

end Mode

end SpeechRom
