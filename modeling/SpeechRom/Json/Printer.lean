import SpeechRom.Text.Digits

/-!
JSON text with one item to a line and an indentation of two blanks for each level.
-/

namespace SpeechRom.Json

/-- A JSON value as far as this program writes any. -/
inductive Value where
  | null
  | bool (value : Bool)
  | number (value : Nat)
  | string (text : String)
  | array (items : List Value)
  | object (members : List (String × Value))

/-- A character inside a string. Quotes, backslashes and control characters are escaped, with
short forms where there are any; everything else stands for itself.
-/
def escapeChar (c : Char) : List Char :=
  if c.toNat = 34 then ['\\', c]
  else if c = '\\' then ['\\', '\\']
  else if c.toNat = 8 then ['\\', 'b']
  else if c.toNat = 12 then ['\\', 'f']
  else if c = '\n' then ['\\', 'n']
  else if c = '\r' then ['\\', 'r']
  else if c = '\t' then ['\\', 't']
  else if c.toNat < 32 then
    ['\\', 'u'] ++ Text.padLeft '0' 4 ((Text.hexChars c.toNat).map Char.toLower)
  else [c]

/-- A string in its quotes. -/
def quote (text : String) : String :=
  "\"" ++ String.ofList (text.toList.flatMap escapeChar) ++ "\""

/-- The blanks in front of a line. -/
def indent (depth : Nat) : String := String.ofList (List.replicate (2 * depth) ' ')

/-- Items between brackets, each on a line of its own one level deeper. -/
def bracket (opening closing : String) (depth : Nat) (items : List String) : String :=
  if items.isEmpty then opening ++ closing
  else
    opening ++ "\n" ++
      String.intercalate ",\n" (items.map fun item => indent (depth + 1) ++ item) ++
      "\n" ++ indent depth ++ closing

mutual

/-- The text of a value whose first line is already indented. -/
def Value.render (depth : Nat) : Value → String
  | .null => "null"
  | .bool true => "true"
  | .bool false => "false"
  | .number value => Text.decimal value
  | .string text => quote text
  | .array items => bracket "[" "]" depth (renderItems (depth + 1) items)
  | .object members => bracket "\x7b" "\x7d" depth (renderMembers (depth + 1) members)

/-- The texts of the items of an array. -/
def renderItems (depth : Nat) : List Value → List String
  | [] => []
  | item :: rest => item.render depth :: renderItems depth rest

/-- The texts of the members of an object. -/
def renderMembers (depth : Nat) : List (String × Value) → List String
  | [] => []
  | (key, value) :: rest =>
    (quote key ++ ": " ++ value.render depth) :: renderMembers depth rest

end

/-- The text of a value, without a final line feed. -/
def Value.text (value : Value) : String := value.render 0

end SpeechRom.Json
