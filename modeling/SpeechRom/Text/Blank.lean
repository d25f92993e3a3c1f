import SpeechRom.Text.Ranges
import SpeechRom.Text.Split

/-!
White space in the sense of Unicode, and the words that it separates.
-/

namespace SpeechRom.Text

/-- The code points with the White_Space property. -/
def blankRanges : List (Nat × Nat) :=
  [(0x9, 0xD), (0x20, 0x20), (0x85, 0x85), (0xA0, 0xA0), (0x1680, 0x1680), (0x2000, 0x200A),
    (0x2028, 0x2029), (0x202F, 0x202F), (0x205F, 0x205F), (0x3000, 0x3000)]

/-- Whether a character is white space. -/
def isBlank (c : Char) : Bool :=
  inRanges blankRanges c.toNat

/-- The maximal runs of characters that are not white space. -/
def words (chars : List Char) : List (List Char) :=
  (splitOn isBlank chars).filter fun word => !word.isEmpty

end SpeechRom.Text
