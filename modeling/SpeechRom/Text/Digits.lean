/-!
Digits of numbers: upper-case hexadecimal, decimal, and binary of a fixed width. Hexadecimal and
decimal have readers beside them; the one for hexadecimal takes either case. Leading zeros are
read but never written.
-/

namespace SpeechRom.Text

/-- Fills on the left up to a width. Longer text is kept whole. -/
def padLeft (fill : Char) (width : Nat) (chars : List Char) : List Char :=
  List.replicate (width - chars.length) fill ++ chars

/-- Fills on the right up to a width. Longer text is kept whole. -/
def padRight (fill : Char) (width : Nat) (chars : List Char) : List Char :=
  chars ++ List.replicate (width - chars.length) fill

/-- Right-aligned text in a column of blanks; the width counts characters. -/
def alignRight (width : Nat) (text : String) : String :=
  String.ofList (padLeft ' ' width text.toList)

/-- Left-aligned text in a column of blanks; the width counts characters. -/
def alignLeft (width : Nat) (text : String) : String :=
  String.ofList (padRight ' ' width text.toList)

/-- The digit of a value below sixteen: `0` to `9`, then `A` to `F`. -/
def hexDigit (value : Nat) : Char :=
  if value < 10 then Char.ofNat (48 + value) else Char.ofNat (55 + value)

/-- The digits of a number, most significant first, without leading zeros. -/
def hexChars (value : Nat) : List Char :=
  if value < 16 then [hexDigit value]
  else hexChars (value / 16) ++ [hexDigit (value % 16)]
termination_by value

/-- A number in upper-case hexadecimal. -/
def hex (value : Nat) : String :=
  String.ofList (hexChars value)

/-- A number in upper-case hexadecimal with at least `width` digits. -/
def hexPadded (width value : Nat) : String :=
  String.ofList (padLeft '0' width (hexChars value))

/-- The value of a hexadecimal digit of either case. -/
def hexValue? (c : Char) : Option Nat :=
  if '0' ≤ c ∧ c ≤ '9' then some (c.toNat - 48)
  else if 'A' ≤ c ∧ c ≤ 'F' then some (c.toNat - 55)
  else if 'a' ≤ c ∧ c ≤ 'f' then some (c.toNat - 87)
  else none

/-- Reads on from a value with hexadecimal digits; `none` at the first other character. -/
def hexFrom? (value : Nat) : List Char → Option Nat
  | [] => some value
  | c :: rest =>
    match hexValue? c with
    | none => none
    | some digit => hexFrom? (value * 16 + digit) rest

/-- Reads one or more hexadecimal digits and nothing else. -/
def readHex? : List Char → Option Nat
  | [] => none
  | chars => hexFrom? 0 chars

/-- The decimal digits of a number, most significant first, without leading zeros. -/
def decimalChars (value : Nat) : List Char :=
  if value < 10 then [hexDigit value]
  else decimalChars (value / 10) ++ [hexDigit (value % 10)]
termination_by value

/-- A number in decimal. -/
def decimal (value : Nat) : String :=
  String.ofList (decimalChars value)

/-- Whether a character is one of the digits `0` to `9`. -/
def isDigit (c : Char) : Bool := '0' ≤ c && c ≤ '9'

/-- The number that decimal digits spell. -/
def decimalValue (digits : List Char) : Nat :=
  digits.foldl (fun value digit => value * 10 + (digit.toNat - 48)) 0

/-- The low `width` bits of a number as binary digits, most significant first. -/
def binaryChars (width value : Nat) : List Char :=
  (List.range width).map fun place =>
    if value.testBit (width - 1 - place) then '1' else '0'

/-- The low `width` bits of a number in binary. -/
def binary (width value : Nat) : String :=
  String.ofList (binaryChars width value)

end SpeechRom.Text
