import SpeechRom.Decode
import SpeechRom.Symbol.Dump

/-!
The listing: for each instruction its labels, one line with the instruction itself, and rows that
show its bits field by field, in groups of four.
-/

namespace SpeechRom

/-- One row of a field: its first bit, its digits in groups of four, and whether the field
started in an earlier row.
-/
structure FieldRow where
  field : Field
  start : BitAddress
  groups : List (List Char)
  isContinued : Bool
deriving DecidableEq, Repr

namespace FieldRow

/-- The bits that fit in a row. -/
def bitsPerRow : Nat := 24

/-- The bits of a group. -/
def bitsPerGroup : Nat := 4

/-- All digits of a row. -/
def digits (row : FieldRow) : List Char := row.groups.flatten

/-- The address of the last bit of a row. -/
def last (row : FieldRow) : BitAddress :=
  row.start + UInt32.ofNat row.digits.length - (1 : UInt32)

/-- The digits of so many bits from an address on. -/
def groupDigits (image : Image) (start : BitAddress) (count : Nat) : List Char :=
  Text.binaryChars count (image.readForward start (UInt32.ofNat count)).toNat

/-- The groups of a row with so many bits. There are always six; those at the end may be short
or empty.
-/
def groupsOf (image : Image) (start : BitAddress) (count : Nat) : List (List Char) :=
  (List.range (bitsPerRow / bitsPerGroup)).map fun group =>
    groupDigits image (start + UInt32.ofNat (bitsPerGroup * group))
      (min bitsPerGroup (count - bitsPerGroup * group))

/-- The rows of a field of which so many bits are shown. -/
def ofField (image : Image) (placed : PlacedField) (count : Nat) : List FieldRow :=
  (List.range ((count + bitsPerRow - 1) / bitsPerRow)).map fun row =>
    let start := placed.start + UInt32.ofNat (bitsPerRow * row)
    ⟨placed.field, start, groupsOf image start (min bitsPerRow (count - bitsPerRow * row)),
      row != 0⟩

/-- How many bits of a field are shown when the fields up to its end have `total` bits. What sticks
out of an instruction of the given length is cut off.
-/
def shownWidth (length total width : UInt32) : UInt32 :=
  if length < total then width - (total - length) else width

/-- The rows of fields that follow `before` bits of an instruction of the given length. What lies
past the end of the instruction is not shown.
-/
def ofFields (image : Image) (length before : UInt32) : List PlacedField → List FieldRow
  | [] => []
  | placed :: rest =>
    if length ≤ before then []
    else
      let total := before + placed.width
      ofField image placed (shownWidth length total placed.width).toNat ++
        ofFields image length total rest

/-- The rows of an instruction. -/
def ofInstruction (image : Image) (instruction : Instruction) : List FieldRow :=
  ofFields image instruction.length 0 (instruction.format.place instruction.address)

/-- A row as a line: the digits, the range of addresses, and the name of the field. -/
def line (commentChar : Char) (row : FieldRow) : String :=
  "    " ++
    String.join (row.groups.map fun group => " " ++ String.ofList (Text.padRight ' ' 4 group)) ++
    "  " ++ String.ofList [commentChar] ++ " " ++ row.start.text ++ " .. " ++ row.last.text ++
    ":  " ++ row.field.name ++ (if row.field.isReversed then " (br)" else "") ++
    (if row.isContinued then " (cont)" else "")

end FieldRow

namespace Listing

/-- A line that starts with the comment character twice. -/
def headingLine (commentChar : Char) (text : String) : String :=
  String.ofList [commentChar, commentChar] ++ text

/-- The heading of the listing. -/
def banner (commentChar : Char) : List String :=
  [headingLine commentChar rule, headingLine commentChar " Disassembled output",
    headingLine commentChar rule, ""]

/-- The names at an address from a sequence number on, at most as many as `bound`. -/
def namesFrom (symbols : SymbolTable) (address : BitAddress) (sequence : UInt32) :
    Nat → List String
  | 0 => []
  | bound + 1 =>
    match symbols.nameAt? address sequence with
    | none => []
    | some name => name :: namesFrom symbols address (sequence + 1) bound

/-- The lines above an instruction with a name: a rule and all names of its address. The names after
the first one end at the first sequence number without a name; with all numbers taken they would
start again from zero, and end here.
-/
def labelLines (commentChar : Char) (symbols : SymbolTable) (address : BitAddress)
    (first : String) : List String :=
  headingLine commentChar rule ::
    (first :: namesFrom symbols address 1 (UInt32.size - 1)).map fun name =>
      headingLine commentChar (" " ++ name ++ ":")

/-- The line of an instruction. -/
def instructionLine (commentChar : Char) (instruction : Instruction) : String :=
  String.ofList [commentChar] ++ " " ++ instruction.address.text ++ "  " ++
    Text.alignLeft 16 instruction.mnemonic ++ Text.alignLeft 16 instruction.operand

/-- What an instruction adds to a listing: its lines, the table with its label counted, and the
symbol that was made for it.
-/
structure Block where
  lines : List String
  symbols : SymbolTable
  added : Option Symbol

/-- Lists one instruction. A branch target without a name receives one here, and an instruction
without any label is set off by a blank line.
-/
def block (commentChar : Char) (image : Image) (symbols : SymbolTable)
    (instruction : Instruction) : Except SymbolError Block :=
  let letter :=
    if image.isTagged instruction.address 1 TagSet.branchTarget then some 'L' else none
  let body :=
    instructionLine commentChar instruction ::
      (FieldRow.ofInstruction image instruction).map (·.line commentChar)
  match symbols.label instruction.address letter 0 with
  | .error error => .error error
  | .ok ⟨symbols, none, added⟩ => .ok ⟨"" :: body, symbols, added⟩
  | .ok ⟨symbols, some first, added⟩ =>
    .ok ⟨labelLines commentChar symbols instruction.address first ++ body,
      (symbols.markDirect instruction.address).1, added⟩

/-- What has been listed: lines, the table, the symbols that were made, and the error that ended
the listing early, if there was one.
-/
structure Rendering where
  lines : Array String
  symbols : SymbolTable
  added : Array Symbol
  error : Option SymbolError

/-- Lists instructions after those that have been listed already, up to the first error. -/
def extend (commentChar : Char) (image : Image) (lines : Array String) (symbols : SymbolTable)
    (added : Array Symbol) : List Instruction → Rendering
  | [] => ⟨lines, symbols, added, none⟩
  | instruction :: rest =>
    match block commentChar image symbols instruction with
    | .error error => ⟨lines, symbols, added, some error⟩
    | .ok next =>
      extend commentChar image (lines ++ next.lines.toArray) next.symbols
        (added ++ next.added.toArray) rest

end Listing

end SpeechRom
