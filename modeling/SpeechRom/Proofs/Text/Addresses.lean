import SpeechRom.Proofs.Address
import SpeechRom.Proofs.Text.Digits
import SpeechRom.Proofs.Text.Words

/-! Bit addresses as they are written. Byte and bit are hexadecimal numbers with a point between
them, from which the address is read back, and there is no blank among their characters.
-/

namespace SpeechRom.BitAddress

/-- The address of a bit in a byte. -/
def ofParts (byte bit : Nat) : BitAddress := ⟨UInt32.ofNat (8 * byte + bit)⟩

theorem ofParts_byte_bit (address : BitAddress)
    : ofParts address.byte.toNat address.bit.toNat = address := by
  have top := address.toNat_lt
  refine ext_toNat ?_
  rw [ofParts, toNat_byte, toNat_bit, toNat, UInt32.toNat_ofNat']
  omega

/-- Reads an address as it is written: a dollar sign, then byte and bit in hexadecimal with a point
between them.
-/
def ofText? (text : String) : Option BitAddress :=
  match text.toList with
  | '$' :: digits =>
    match Text.splitOn (· == '.') digits with
    | [byte, bit] =>
      match Text.readHex? byte, Text.readHex? bit with
      | some byte, some bit => some (ofParts byte bit)
      | _, _ => none
    | _ => none
  | _ => none

theorem toList_digits (address : BitAddress)
    : address.digits.toList
      = Text.padLeft '0' 4 (Text.hexChars address.byte.toNat)
        ++ '.' :: Text.hexChars address.bit.toNat := by
  simp [digits, Text.hexPadded, Text.hex]

/-- A written address is read back, since neither of its numbers contains a point. -/
theorem ofText?_text (address : BitAddress) : ofText? address.text = some address := by
  have pointless (width value : Nat)
      : ∀ c ∈ Text.padLeft '0' width (Text.hexChars value), (c == '.') = false := by
    intro c member
    have apart : c ≠ '.' := fun same => Text.not_mem_padLeft (by decide) width value (same ▸ member)
    simpa using apart
  have bare (value : Nat) : Text.padLeft '0' 0 (Text.hexChars value) = Text.hexChars value := by
    rw [Text.padLeft, Nat.zero_sub]
    rfl
  have chars : address.text.toList
      = '$' :: (Text.padLeft '0' 4 (Text.hexChars address.byte.toNat)
          ++ '.' :: Text.hexChars address.bit.toNat) := by
    rw [text, String.toList_append, toList_digits]
    rfl
  have pieces : Text.splitOn (· == '.') (Text.padLeft '0' 4 (Text.hexChars address.byte.toNat)
        ++ '.' :: Text.padLeft '0' 0 (Text.hexChars address.bit.toNat))
      = [_, _] :=
    Text.splitOn_pair rfl (pointless 4 _) (pointless 0 _)
  rw [bare] at pieces
  simp only [ofText?, chars, pieces, Text.readHex?_padLeft, Text.readHex?_hexChars,
    ofParts_byte_bit]

theorem ofText?_digits (address : BitAddress)
    : ofText? ("$" ++ String.ofList address.digits.toList) = some address := by
  rw [String.ofList_toList]
  exact address.ofText?_text

/-- A written address is one word. -/
theorem digits_plain (address : BitAddress)
    : ∀ c ∈ address.digits.toList, Text.isBlank c = false := by
  have plain : ∀ digit : Fin 16, Text.isBlank (Text.hexDigit digit) = false := by decide
  intro c member
  rw [toList_digits, List.mem_append, List.mem_cons] at member
  rcases member with byte | rfl | bit
  · obtain ⟨digit, rfl⟩ := Text.mem_padLeft byte
    exact plain digit
  · decide
  · obtain ⟨digit, rfl⟩ := Text.mem_hexChars bit
    exact plain digit

theorem text_plain (address : BitAddress)
    : ∀ c ∈ address.text.toList, Text.isBlank c = false := by
  intro c member
  rw [text, String.toList_append] at member
  rcases List.mem_append.mp member with dollar | digit
  · rw [List.mem_singleton.mp dollar]
    decide
  · exact address.digits_plain c digit

end SpeechRom.BitAddress
