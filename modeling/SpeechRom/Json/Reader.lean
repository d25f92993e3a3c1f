import SpeechRom.Text.Digits

/-!
A strict reader of JSON for documents whose wanted values are plain ones. It reads an object or a
list of plain values and checks and skips whatever else an object holds, to any depth.
-/

namespace SpeechRom.Json

/-- Whether a character is white space between tokens. -/
def isSpace (c : Char) : Bool := c = ' ' || c = '\n' || c = '\t' || c = '\r'

/-- What follows white space. -/
def skipSpace (chars : List Char) : List Char := chars.dropWhile isSpace

-----------------------------------------------------------------------------------------
-- Strings
-----------------------------------------------------------------------------------------

/-- One unit of a string: a character, or the number of a four-digit escape, which may be one
half of a pair.
-/
inductive StringUnit where
  | char (c : Char)
  | code (value : Nat)
deriving DecidableEq, Repr

/-- The character of a short escape. -/
def shortEscape? (c : Char) : Option Char :=
  if c.toNat = 34 || c = '\\' || c = '/' then some c
  else if c = 'b' then some (Char.ofNat 8)
  else if c = 'f' then some (Char.ofNat 12)
  else if c = 'n' then some '\n'
  else if c = 'r' then some '\r'
  else if c = 't' then some '\t'
  else none

/-- The units of a string after its opening quote, and what follows its closing quote. Control
characters do not stand for themselves.
-/
def scanString : List Char → Option (List StringUnit × List Char)
  | [] => none
  | c :: rest =>
    if c.toNat = 34 then some ([], rest)
    else if c = '\\' then
      match rest with
      | 'u' :: a :: b :: d :: e :: rest =>
        match Text.readHex? [a, b, d, e], scanString rest with
        | some value, some (units, rest) => some (.code value :: units, rest)
        | _, _ => none
      | escape :: rest =>
        match shortEscape? escape, scanString rest with
        | some c, some (units, rest) => some (.char c :: units, rest)
        | _, _ => none
      | [] => none
    else if c.toNat < 32 then none
    else
      match scanString rest with
      | some (units, rest) => some (.char c :: units, rest)
      | none => none

/-- Whether a code is the first half of a pair. -/
def isLeading (code : Nat) : Bool := 0xD800 ≤ code && code ≤ 0xDBFF

/-- Whether a code is the second half of a pair. -/
def isTrailing (code : Nat) : Bool := 0xDC00 ≤ code && code ≤ 0xDFFF

/-- The characters that units stand for. Both halves of a pair are needed. -/
def decodeUnits? : List StringUnit → Option (List Char)
  | [] => some []
  | .char c :: rest => (decodeUnits? rest).map (c :: ·)
  | .code first :: .code second :: rest =>
    if isLeading first then
      if isTrailing second then
        (decodeUnits? rest).map
          (Char.ofNat (0x10000 + (first - 0xD800) * 0x400 + (second - 0xDC00)) :: ·)
      else none
    else if isTrailing first then none
    else (decodeUnits? (.code second :: rest)).map (Char.ofNat first :: ·)
  | .code first :: rest =>
    if isLeading first || isTrailing first then none
    else (decodeUnits? rest).map (Char.ofNat first :: ·)

/-- The text of a string after its opening quote, and what follows its closing quote. -/
def readString? (chars : List Char) : Option (List Char × List Char) :=
  match scanString chars with
  | none => none
  | some (units, rest) => (decodeUnits? units).map (·, rest)

-----------------------------------------------------------------------------------------
-- Numbers
-----------------------------------------------------------------------------------------

/-- One or more digits and what follows them. -/
def readDigits? (chars : List Char) : Option (List Char × List Char) :=
  match chars.span Text.isDigit with
  | ([], _) => none
  | digits => some digits

/-- The digits of a whole number, of which only zero starts with a zero. -/
def readWhole? (chars : List Char) : Option (List Char × List Char) :=
  match readDigits? chars with
  | some ('0' :: _ :: _, _) => none
  | digits => digits

/-- What follows a fraction, and whether there is one. -/
def skipFraction? (chars : List Char) : Option (Bool × List Char) :=
  match chars with
  | '.' :: rest => (readDigits? rest).map (true, ·.2)
  | rest => some (false, rest)

/-- What follows a sign, if there is one. -/
def skipSign : List Char → List Char
  | '+' :: rest => rest
  | '-' :: rest => rest
  | rest => rest

/-- What follows an exponent, and whether there is one. -/
def skipExponent? (chars : List Char) : Option (Bool × List Char) :=
  match chars with
  | 'e' :: rest => (readDigits? (skipSign rest)).map (true, ·.2)
  | 'E' :: rest => (readDigits? (skipSign rest)).map (true, ·.2)
  | rest => some (false, rest)

/-- A number without its sign: its value if it is written as a whole number, and what follows
it.
-/
def readUnsigned? (chars : List Char) : Option (Option Nat × List Char) :=
  match readWhole? chars with
  | none => none
  | some (digits, rest) =>
    match skipFraction? rest with
    | none => none
    | some (hasFraction, rest) =>
      match skipExponent? rest with
      | none => none
      | some (hasExponent, rest) =>
        some (if hasFraction || hasExponent then none else some (Text.decimalValue digits), rest)

-----------------------------------------------------------------------------------------
-- Plain values
-----------------------------------------------------------------------------------------

/-- A value that is neither a list nor an object. Numbers with a sign, a fraction or an exponent
are not told apart.
-/
inductive Scalar where
  | null
  | bool (value : Bool)
  | natural (value : Nat)
  | otherNumber
  | string (text : List Char)
deriving DecidableEq, Repr

/-- What follows a word, if the word comes next. -/
def dropWord? (word : String) (chars : List Char) : Option (List Char) :=
  if word.toList.isPrefixOf chars then some (chars.drop word.length) else none

/-- Reads a plain value and what follows it. -/
def readScalar? (chars : List Char) : Option (Scalar × List Char) :=
  match skipSpace chars with
  | 'n' :: rest => (dropWord? "ull" rest).map (.null, ·)
  | 't' :: rest => (dropWord? "rue" rest).map (.bool true, ·)
  | 'f' :: rest => (dropWord? "alse" rest).map (.bool false, ·)
  | '"' :: rest => (readString? rest).map fun found => (.string found.1, found.2)
  | '-' :: rest => (readUnsigned? rest).map fun found => (.otherNumber, found.2)
  | rest =>
    (readUnsigned? rest).map fun found =>
      (match found.1 with
        | some value => .natural value
        | none => .otherNumber,
        found.2)

-----------------------------------------------------------------------------------------
-- Skipping
-----------------------------------------------------------------------------------------

/-- A bracket that has been opened. -/
inductive Opened where
  | list
  | object
deriving DecidableEq, Repr

/-- What is expected next while skipping. -/
inductive Expected where
  | value
  | member
  | afterValue
deriving DecidableEq, Repr

/-- What follows the key of a member and its colon. The key's text is not looked at. -/
def skipKey? (chars : List Char) : Option (List Char) :=
  match skipSpace chars with
  | '"' :: rest =>
    match scanString rest with
    | none => none
    | some (_, rest) =>
      match skipSpace rest with
      | ':' :: rest => some rest
      | _ => none
  | _ => none

/-- What follows a plain value. The text of a string is not decoded. -/
def skipScalar? (chars : List Char) : Option (List Char) :=
  match chars with
  | '"' :: rest => (scanString rest).map (·.2)
  | chars => (readScalar? chars).map (·.2)

/-- Skips what is expected and closes all that has been opened. Every round uses up a character,
so their number is bounded by that of the characters.
-/
def skipRounds (opened : List Opened) (expected : Expected) (chars : List Char) :
    Nat → Option (List Char)
  | 0 => none
  | rounds + 1 =>
    match expected with
    | .value =>
      match skipSpace chars with
      | '[' :: rest =>
        match skipSpace rest with
        | ']' :: rest => skipRounds opened .afterValue rest rounds
        | rest => skipRounds (.list :: opened) .value rest rounds
      | '\x7b' :: rest =>
        match skipSpace rest with
        | '\x7d' :: rest => skipRounds opened .afterValue rest rounds
        | rest => skipRounds (.object :: opened) .member rest rounds
      | rest =>
        match skipScalar? rest with
        | some rest => skipRounds opened .afterValue rest rounds
        | none => none
    | .member =>
      match skipKey? chars with
      | some rest => skipRounds opened .value rest rounds
      | none => none
    | .afterValue =>
      match opened with
      | [] => some chars
      | .list :: outer =>
        match skipSpace chars with
        | ',' :: rest => skipRounds opened .value rest rounds
        | ']' :: rest => skipRounds outer .afterValue rest rounds
        | _ => none
      | .object :: outer =>
        match skipSpace chars with
        | ',' :: rest => skipRounds opened .member rest rounds
        | '\x7d' :: rest => skipRounds outer .afterValue rest rounds
        | _ => none

/-- What follows a value of any kind. -/
def skipValue? (chars : List Char) : Option (List Char) :=
  skipRounds [] .value chars (chars.length + 2)

-----------------------------------------------------------------------------------------
-- Documents
-----------------------------------------------------------------------------------------

/-- Reads the members of an object after its opening bracket or a comma. Wanted members have
plain values; the others are skipped. Members found before are passed along, the latest first.
-/
def readMembers (wanted : String → Bool) (members : List (String × Scalar))
    (chars : List Char) : Nat → Option (List (String × Scalar) × List Char)
  | 0 => none
  | rounds + 1 =>
    match skipSpace chars with
    | '"' :: rest =>
      match readString? rest with
      | none => none
      | some (key, rest) =>
        match skipSpace rest with
        | ':' :: rest =>
          let key := String.ofList key
          let found :=
            if wanted key then
              (readScalar? rest).map fun found => ((key, found.1) :: members, found.2)
            else (skipValue? rest).map (members, ·)
          match found with
          | none => none
          | some (members, rest) =>
            match skipSpace rest with
            | ',' :: rest => readMembers wanted members rest rounds
            | '\x7d' :: rest => some (members.reverse, rest)
            | _ => none
        | _ => none
    | _ => none

/-- Reads the items of a list after its opening bracket or a comma. Items found before are passed
along, the latest first.
-/
def readItems (items : List Scalar) (chars : List Char) :
    Nat → Option (List Scalar × List Char)
  | 0 => none
  | rounds + 1 =>
    match readScalar? chars with
    | none => none
    | some (item, rest) =>
      match skipSpace rest with
      | ',' :: rest => readItems (item :: items) rest rounds
      | ']' :: rest => some ((item :: items).reverse, rest)
      | _ => none

/-- A document: an object with its wanted members, or a list. -/
inductive Document where
  | object (members : List (String × Scalar))
  | list (items : List Scalar)
deriving DecidableEq, Repr

/-- Reads the object or list at the start of a text. -/
def readDocument? (wanted : String → Bool) (chars : List Char) :
    Option (Document × List Char) :=
  match skipSpace chars with
  | '\x7b' :: rest =>
    match skipSpace rest with
    | '\x7d' :: rest => some (.object [], rest)
    | rest =>
      (readMembers wanted [] rest rest.length).map fun found => (.object found.1, found.2)
  | '[' :: rest =>
    match skipSpace rest with
    | ']' :: rest => some (.list [], rest)
    | rest => (readItems [] rest rest.length).map fun found => (.list found.1, found.2)
  | _ => none

/-- Reads a whole text as one document. -/
def parse? (wanted : String → Bool) (text : String) : Option Document :=
  match readDocument? wanted text.toList with
  | none => none
  | some (document, rest) => if (skipSpace rest).isEmpty then some document else none

end SpeechRom.Json
