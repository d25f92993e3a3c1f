import SpeechRom.Image.Tags
import SpeechRom.Instruction
import SpeechRom.Symbol.Table

/-!
Decoding of single instructions. What the bits of the image say is read first, without looking at
symbols. Then the bits are tagged, a branch target receives its name, and the mode register moves
on.
-/

namespace SpeechRom

-----------------------------------------------------------------------------------------
-- Operands
-----------------------------------------------------------------------------------------

/-- Four bits in the opposite order, as repeat counts are stored. -/
def reverseNibble (value : Nat) : Nat :=
  8 * (value % 2) + 4 * (value / 2 % 2) + 2 * (value / 4 % 2) + value / 8 % 2

/-- What an instruction works on. -/
inductive Operand where
  | absent
  | page (value : Fin 16)
  | modeBits (value : Fin 16)
  | repeatCount (upper : UInt8) (value : Fin 16)
  | branch (target : BitAddress)
deriving DecidableEq, Repr

/-- The text of an operand. A branch shows the label of its target. -/
def Operand.text (label : String) : Operand → String
  | absent => ""
  | page value => "$" ++ Text.hex value.val
  | modeBits value =>
    "RPT=$" ++ Text.hex (reverseNibble (value.val / 4 * 4)) ++ "?, MODE=" ++
      Text.binary 2 value.val
  | repeatCount upper value =>
    "RPT=$" ++ Text.hex (reverseNibble upper.toNat) ++ Text.hex (reverseNibble value.val)
  | branch _ => label

-----------------------------------------------------------------------------------------
-- Reading
-----------------------------------------------------------------------------------------

/-- Tags to be put on a range of bits. -/
structure Tagging where
  start : BitAddress
  length : UInt32
  tags : TagSet
deriving DecidableEq, Repr

/-- What the bits at an address say. -/
structure Reading where
  address : BitAddress
  length : UInt32
  opcode : Fin 16
  mnemonic : String
  operand : Operand
  format : Format
  entryMode : Mode
  exitMode : Mode
  taggings : List Tagging
deriving DecidableEq, Repr

namespace Reading

/-- The name that a format gives to its instruction. -/
def mnemonicOf (fields : List PlacedField) : String :=
  fields.foldl
    (fun name placed => if placed.field.isMnemonic then placed.field.name else name) ""

/-- The tags of the operand fields. -/
def operandTaggings (fields : List PlacedField) : List Tagging :=
  (fields.filter fun placed => !placed.field.isMnemonic).map fun placed =>
    ⟨placed.start, placed.width, TagSet.operand⟩

/-- The target of a branch: the page of the mode, the immediate value and the eight bits after
the opcode make a byte address.
-/
def branchTarget (image : Image) (mode : Mode) (address : BitAddress) (immediate : Fin 16) :
    BitAddress :=
  BitAddress.ofByte
    ((mode.page.toUInt32 <<< 8) ||| (UInt32.ofNat immediate.val <<< 8) |||
      image.readForward (address + (8 : UInt32)) 8)

/-- The mode after an instruction that is neither a return nor the setting of page or mode:
repeat bits are used up, and the page is that of the next address.
-/
def nextMode (mode : Mode) (next : BitAddress) : Mode :=
  mode.withoutRepeatBits.withPage next.page

/-- A tag for the first bit of an instruction that something leads to. -/
def targetTagging (address : BitAddress) : Tagging := ⟨address, 1, TagSet.branchTarget⟩

/-- Reads the instruction at an address. -/
def ofImage (table : FormatTable) (image : Image) (mode : Mode) (address : BitAddress) :
    Reading :=
  let immediate := FormatTable.nibble (image.readForward address 4)
  let opcode := FormatTable.nibble (image.readForward (address + (4 : UInt32)) 4)
  let format := table.format opcode (FormatTable.modeOf mode.operandMode)
  let fields := format.place address
  let length := placedLength fields
  let next := address + length
  let taggings :=
    ⟨address, 4, TagSet.operand⟩ :: ⟨address + (4 : UInt32), 4, TagSet.code⟩ ::
      operandTaggings fields
  let reading : Reading := {
    address
    length
    opcode
    mnemonic := mnemonicOf fields
    operand := .repeatCount mode.repeatBits immediate
    format
    entryMode := mode
    exitMode := nextMode mode next
    taggings }
  match opcode with
  | 0 =>
    if immediate.val = 0 then
      { reading with
        mnemonic := "RTS"
        operand := .absent
        exitMode := (mode.withPage (address + (8 : UInt32)).page).withoutRepeatBits
        taggings :=
          if image.readForward next 8 = 0 then taggings else taggings ++ [targetTagging next] }
    else
      { reading with
        length := 8
        mnemonic := "SETPAGE"
        operand := .page immediate
        exitMode := (mode.withPage (UInt8.ofNat immediate.val <<< 4)).withoutRepeatBits }
  | 7 =>
    let target := branchTarget image mode address immediate
    { reading with
      operand := .branch target
      taggings := taggings ++ [targetTagging next, targetTagging target] }
  | 8 =>
    { reading with
      operand := .modeBits immediate
      exitMode := (mode.withLowNibble (UInt8.ofNat immediate.val)).withPage next.page }
  | 11 =>
    let target := branchTarget image mode address immediate
    { reading with
      operand := .branch target
      taggings := taggings ++ [targetTagging target] }
  | _ => reading

/-- The instruction that was read, with the label of a branch target. -/
def instruction (reading : Reading) (label : String) : Instruction where
  address := reading.address
  length := reading.length
  opcode := reading.opcode
  mnemonic := reading.mnemonic
  operand := reading.operand.text label
  format := reading.format
  mode := reading.entryMode

end Reading

-----------------------------------------------------------------------------------------
-- Decoding
-----------------------------------------------------------------------------------------

/-- Why decoding fails. -/
inductive DecodeError where
  | tooShort (address : BitAddress)
  | symbol (error : SymbolError)
  | unfinished (address : BitAddress)
deriving DecidableEq, Repr

namespace DecodeError

def message : DecodeError → String
  | tooShort address => s!"Instruction at {address.text} decoded to less than a byte"
  | symbol error => "Symbol error: " ++ error.message
  | unfinished address => s!"Decoding has come to {address.text} without an end in sight"

def causes (error : DecodeError) : List String :=
  match error with
  | symbol inner => error.message :: inner.causes
  | _ => [error.message]

end DecodeError

/-- What decoding works on and leaves for the next instruction. -/
structure DecoderState where
  image : Image
  symbols : SymbolTable
  mode : Mode

/-- The result of decoding one instruction: the state afterwards, the instruction or an error,
and the symbol that was made for a branch target.
-/
structure DecodeStep where
  state : DecoderState
  outcome : Except DecodeError Instruction
  added : Option Symbol

namespace DecodeStep

/-- What there is to say about a step. -/
def notices (step : DecodeStep) : List Notice :=
  (step.added.map (·.notice)).toList ++
    match step.outcome with
    | .error _ => []
    | .ok instruction =>
      [.decoded instruction.address instruction.mnemonic instruction.operand
        instruction.length.toNat]

end DecodeStep

/-- Tags the bits that a reading speaks of. -/
def applyTaggings (image : Image) (taggings : List Tagging) : Image :=
  taggings.foldl (fun image tagging => image.addTags tagging.start tagging.length tagging.tags)
    image

/-- The letter of a made label: `L` for a target in the image and `G` for one outside. -/
def labelLetter (image : Image) (target : BitAddress) : Char :=
  if (image.tagsOver target 8).hasAll TagSet.inside then 'L' else 'G'

/-- A reading whose branch target has been named. Instructions shorter than a byte are refused,
after all else has been done.
-/
def finishStep (reading : Reading) (image : Image) (symbols : SymbolTable) (label : String)
    (added : Option Symbol) : DecodeStep where
  state := ⟨image, symbols, reading.exitMode⟩
  outcome :=
    if reading.length < 8 then .error (.tooShort reading.address)
    else .ok (reading.instruction label)
  added := added

/-- Decodes the instruction at an address. When its target cannot be named, tags are kept and the
mode stays as it was.
-/
def decode (table : FormatTable) (address : BitAddress) : DecoderState → DecodeStep
  | ⟨image, symbols, mode⟩ =>
    let reading := Reading.ofImage table image mode address
    let image := applyTaggings image reading.taggings
    match reading.operand with
    | .branch target =>
      match symbols.label target (some (labelLetter image target)) 0 with
      | .error error => ⟨⟨image, symbols, mode⟩, .error (.symbol error), none⟩
      | .ok labelling =>
        finishStep reading image (labelling.table.addReference target address).1
          (labelling.name.getD "") labelling.added
    | _ => finishStep reading image symbols "" none

end SpeechRom
