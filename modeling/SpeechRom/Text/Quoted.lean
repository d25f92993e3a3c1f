import SpeechRom.Text.Digits
import SpeechRom.Text.Printable

/-!
Quoted characters and paths in messages. Control characters with a short name, the backslash and
the quote in use are written with a backslash, and what cannot be shown is given by number.
-/

namespace SpeechRom.Text

/-- A character by its number in small hexadecimal digits between braces. -/
def numberedChar (c : Char) : List Char :=
  "\\u\x7b".toList ++ (hexChars c.toNat).map Char.toLower ++ "\x7d".toList

/-- A character as it stands between two of the given quotes. -/
def escapedChar (quote c : Char) : List Char :=
  if c.toNat = 0 then ['\\', '0']
  else if c = '\t' then ['\\', 't']
  else if c = '\r' then ['\\', 'r']
  else if c = '\n' then ['\\', 'n']
  else if c = '\\' then ['\\', '\\']
  else if c = quote then ['\\', c]
  else if isPrintable c then [c]
  else numberedChar c

/-- The single quote. -/
def singleQuote : Char := Char.ofNat 39

/-- The double quote. -/
def doubleQuote : Char := Char.ofNat 34

/-- A character in single quotes. -/
def quotedChar (c : Char) : String :=
  String.ofList (singleQuote :: escapedChar singleQuote c ++ [singleQuote])

/-- A path in double quotes. -/
def quotedPath (path : String) : String :=
  String.ofList
    (doubleQuote :: path.toList.flatMap (escapedChar doubleQuote) ++ [doubleQuote])

end SpeechRom.Text
