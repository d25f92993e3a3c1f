import SpeechRom.Address

/-!
Instruction formats: the bit fields of an encoding in order, and tables that give a format for each
opcode and operand mode.
-/

namespace SpeechRom

/-- One bit field of an encoding. Of the flags, bit 0 marks a field stored least significant bit
first, bit 1 one that pads to the next byte boundary, and bit 2 the opcode, which names the
instruction.
-/
structure Field where
  width : UInt8
  flags : UInt8
  name : String
deriving DecidableEq, Repr

namespace Field

/-- A field stored most significant bit first. -/
def plain (width : UInt8) (name : String) : Field := ⟨width, 0, name⟩

/-- A field stored least significant bit first. -/
def reversed (width : UInt8) (name : String) : Field := ⟨width, 1, name⟩

/-- Padding to the next byte boundary. -/
def padding : Field := ⟨0, 2, "Align"⟩

/-- The opcode. -/
def mnemonic (width : UInt8) (name : String) : Field := ⟨width, 4, name⟩

/-- Whether the field is stored least significant bit first. -/
def isReversed (field : Field) : Bool := field.flags &&& 1 != 0

/-- Whether the field pads to the next byte boundary. -/
def isPadding (field : Field) : Bool := field.flags &&& 2 != 0

/-- Whether the field is the opcode. -/
def isMnemonic (field : Field) : Bool := field.flags &&& 4 != 0

/-- The width of the field when it starts at an address. -/
def widthAt (field : Field) (start : BitAddress) : UInt32 :=
  if field.isPadding then start.bitsToBoundary else field.width.toUInt32

end Field

/-- The fields of an encoding in order. -/
abbrev Format := List Field

/-- A field at its place, with the width that it has there. -/
structure PlacedField where
  field : Field
  start : BitAddress
  width : UInt32
deriving DecidableEq, Repr

/-- The fields of a format one after another from an address on. -/
def Format.place (start : BitAddress) : Format → List PlacedField
  | [] => []
  | field :: rest =>
    ⟨field, start, field.widthAt start⟩ :: Format.place (start + field.widthAt start) rest

/-- The number of bits that placed fields take up together. -/
def placedLength (fields : List PlacedField) : UInt32 :=
  fields.foldl (fun length placed => length + placed.width) 0

/-- The format for each opcode and operand mode. -/
structure FormatTable where
  format : Fin 16 → Fin 4 → Format

namespace FormatTable

/-- The table with one format replaced. -/
def replace (table : FormatTable) (opcode : Fin 16) (mode : Fin 4) (format : Format) :
    FormatTable :=
  ⟨fun op md => if op = opcode ∧ md = mode then format else table.format op md⟩

/-- The number in the low four bits. -/
def nibble (bits : UInt32) : Fin 16 := Fin.ofNat 16 bits.toNat

/-- The opcode in the low half of a byte. -/
def opcodeOf (byte : UInt8) : Fin 16 := nibble byte.toUInt32

/-- The operand mode in the low two bits of a byte. -/
def modeOf (byte : UInt8) : Fin 4 := Fin.ofNat 4 byte.toNat

end FormatTable

/-- What is wrong with a format. -/
inductive FormatFault where
  | empty
  | mnemonicCount (count : Nat)
  | tooWide (name : String) (width : Nat)
deriving DecidableEq, Repr

/-- A table that cannot be used, with the first format at fault. -/
structure FormatError where
  opcode : Fin 16
  mode : Fin 4
  fault : FormatFault
deriving DecidableEq, Repr

namespace FormatError

/-- The place of the format in the table. -/
def slot (error : FormatError) : String :=
  "opcode " ++ Text.hex error.opcode.val ++ ", mode " ++ Text.binary 2 error.mode.val

def message (error : FormatError) : String :=
  "Malformed format table: " ++ error.slot ++
    match error.fault with
    | .empty => " is empty"
    | .mnemonicCount count => s!" has {count} mnemonic fields"
    | .tooWide name width => s!" field '{name}' is {width} bits wide"

end FormatError

/-- What is wrong with a format, if anything: it has fields, exactly one of them is the opcode,
and none is wider than 32 bits.
-/
def Format.fault? (format : Format) : Option FormatFault :=
  if format.isEmpty then some .empty
  else if (format.filter (·.isMnemonic)).length ≠ 1 then
    some (.mnemonicCount (format.filter (·.isMnemonic)).length)
  else
    match format.find? fun field => 32 < field.width with
    | some field => some (.tooWide field.name field.width.toNat)
    | none => none

namespace FormatTable

/-- The first format at fault, in the order of opcodes and then modes. -/
def error? (table : FormatTable) : Option FormatError :=
  (List.finRange 16).findSome? fun opcode =>
    (List.finRange 4).findSome? fun mode =>
      ((table.format opcode mode).fault?).map (⟨opcode, mode, ·⟩)

/-- Accepts a table without faults. -/
def validate (table : FormatTable) : Except FormatError Unit :=
  match table.error? with
  | some error => .error error
  | none => .ok ()

end FormatTable

end SpeechRom
