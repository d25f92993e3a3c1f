import SpeechRom.Text.Digits

/-!
Elapsed times as text: milliseconds below one second and seconds from there on, with two places.
The value is a binary floating point number, and its exact value is what gets rounded.
-/

namespace SpeechRom.Duration

/-- The quotient rounded to the nearest number; a half goes to the even neighbour. -/
def roundDiv (numerator denominator : Nat) : Nat :=
  let quotient := numerator / denominator
  let twice := 2 * (numerator % denominator)
  if twice < denominator then quotient
  else if denominator < twice then quotient + 1
  else quotient + quotient % 2

/-- A number of hundredths with a point before the last two digits. -/
def hundredthsText (hundredths : Nat) : String :=
  toString (hundredths / 100) ++ "." ++
    String.ofList (Text.padLeft '0' 2 (toString (hundredths % 100)).toList)

/-- The hundredths of a finite number that is not negative, from the bits that encode it: 52
bits of fraction and 11 bits of exponent.
-/
def hundredthsOfBits (bits : UInt64) : Nat :=
  let fraction := bits.toNat % (1 <<< 52)
  let exponent := (bits.toNat >>> 52) % (1 <<< 11)
  let significand := if exponent = 0 then fraction else (1 <<< 52) + fraction
  let scale := max exponent 1
  if 1075 ≤ scale then (100 * significand) <<< (scale - 1075)
  else roundDiv (100 * significand) (1 <<< (1075 - scale))

/-- A finite number that is not negative, with two places. -/
def fixedText (value : Float) : String :=
  hundredthsText (hundredthsOfBits value.toBits)

/-- The text of a duration given in nanoseconds. -/
def text (nanoseconds : Nat) : String :=
  let seconds :=
    Float.ofNat (nanoseconds / 1000000000) + Float.ofNat (nanoseconds % 1000000000) / 1000000000.0
  let milliseconds := seconds * 1000.0
  if milliseconds < 1000.0 then fixedText milliseconds ++ "ms"
  else fixedText (milliseconds / 1000.0) ++ "s"

end SpeechRom.Duration
