/-!
Membership in a table of code point ranges, as the properties of characters are tabulated.
-/

namespace SpeechRom.Text

/-- Whether a code point lies in one of the closed ranges. -/
def inRanges (ranges : List (Nat × Nat)) (code : Nat) : Bool :=
  ranges.any fun range => range.1 ≤ code && code ≤ range.2

end SpeechRom.Text
