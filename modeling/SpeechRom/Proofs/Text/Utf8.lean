/-! Texts are ordered as their bytes in UTF-8. The bytes of a character are its digits to the base
64 behind a first byte that grows with their number, so a smaller character has smaller bytes
whatever comes after it.
-/

namespace SpeechRom.Text

end SpeechRom.Text
