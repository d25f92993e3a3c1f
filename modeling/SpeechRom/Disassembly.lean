import SpeechRom.Annotation.Parser
import SpeechRom.Format.Sp0256
import SpeechRom.Listing
import SpeechRom.Settings.Basic
import SpeechRom.Symbol.Export

/-!
A disassembly in two passes. The first pass decodes the image from front to back and collects
branch targets; the second prints the listing, when every target is known and can carry a label.
-/

namespace SpeechRom

-----------------------------------------------------------------------------------------
-- Setting up
-----------------------------------------------------------------------------------------

/-- An image with its symbols, the instructions decoded so far, and what is to be printed. -/
structure Disassembly where
  image : Image
  symbols : SymbolTable
  instructions : Array Instruction
  commentChar : Char
  dumpSymbols : Bool
  dumpReferences : Bool

/-- Why a disassembly cannot be set up. -/
inductive SetupError where
  | imageTooLarge (size : Nat)
  | image (error : ImageError)
  | symbol (error : SymbolError)
  | malformedTable (error : FormatError)
deriving DecidableEq, Repr

namespace SetupError

def message : SetupError → String
  | imageTooLarge size => s!"ROM image of {size} bytes does not fit the bit address space"
  | image error => "Memory error: " ++ error.message
  | symbol error => "Symbol error: " ++ error.message
  | malformedTable error => error.message

def causes (error : SetupError) : List String :=
  match error with
  | imageTooLarge _ => [error.message]
  | image inner => error.message :: inner.causes
  | symbol inner => error.message :: inner.causes
  | malformedTable _ => [error.message]

end SetupError

namespace Disassembly

/-- The byte address of an image. Settings win, then the annotations; annotations without an
origin mean zero.
-/
def originByte (annotations : Option Annotations) (settings : Settings) : UInt32 :=
  match settings.origin, annotations with
  | some byte, _ => byte
  | none, some annotations => annotations.origin?.getD 0
  | none, none => Settings.defaultOrigin

/-- What setting up gives: the disassembly or an error, and the notices up to that point. -/
structure Setup where
  outcome : Except SetupError Disassembly
  notices : List Notice

/-- The image of a ROM. -/
def imageOf (rom : Bytes) (origin : BitAddress) : Except SetupError Image :=
  if 8 * rom.size < 4294967296 then
    match Image.create origin (UInt32.ofNat (8 * rom.size)) with
    | .error error => .error (.image error)
    | .ok image => .ok (image.load rom)
  else .error (.imageTooLarge rom.size)

/-- Sets up the disassembly of a ROM. Symbols of the annotations are defined before their tags
are put on the image, and the table of formats is checked last.
-/
def setup (rom : Bytes) (annotations : Option Annotations) (settings : Settings) : Setup :=
  let origin := BitAddress.ofByte (originByte annotations settings)
  match imageOf rom origin with
  | .error error => ⟨.error error, []⟩
  | .ok image =>
    let hints := annotations.getD []
    let table : SymbolTable := { commentChar := settings.commentChar }
    let definitions := hints.defineSymbols table
    let notices := image.creationNotice :: definitions.added.map (·.notice)
    match definitions.error with
    | some error => ⟨.error (.symbol error), notices⟩
    | none =>
      let notices := notices ++ [.loaded rom.size origin definitions.table.size]
      match Sp0256.table.validate with
      | .error error => ⟨.error (.malformedTable error), notices⟩
      | .ok _ =>
        ⟨.ok {
            image := hints.tagImage image
            symbols := definitions.table
            instructions := #[]
            commentChar := settings.commentChar
            dumpSymbols := settings.dumpSymbols
            dumpReferences := settings.dumpReferences },
          notices⟩

/-- The first bit of the image. -/
def origin (disassembly : Disassembly) : BitAddress := disassembly.image.origin

-----------------------------------------------------------------------------------------
-- Reports
-----------------------------------------------------------------------------------------

/-- What a pass had to say, apart from its beginning and its duration. -/
structure Report where
  pass : Pass
  notices : List Notice

/-- All notices of a pass that took so long. -/
def Report.allNotices (report : Report) (nanoseconds : Nat) : List Notice :=
  .passBegun report.pass :: .timerStarted report.pass ::
    report.notices ++ [.timerTook report.pass nanoseconds]

-----------------------------------------------------------------------------------------
-- First pass
-----------------------------------------------------------------------------------------

/-- A run of decoding: the state that it left, what it decoded, what there is to say, and the
error that ended it early, if there was one.
-/
structure Run where
  state : DecoderState
  instructions : Array Instruction
  notices : Array Notice
  error : Option DecodeError

/-- Decodes one instruction after another until the end of the image is reached, and at most
`bound` of them. An instruction takes up at least a byte, so a bound of one for each byte is never
met unless the cursor wraps around the top of the address space.
-/
def decodeFrom (table : FormatTable) (finish : BitAddress) (bound : Nat) (address : BitAddress)
    (state : DecoderState) (instructions : Array Instruction) (notices : Array Notice) : Run :=
  if address < finish then
    match bound with
    | 0 => ⟨state, instructions, notices, some (.unfinished address)⟩
    | bound + 1 =>
      let step := decode table address state
      let notices := notices ++ step.notices.toArray
      match step.outcome with
      | .error error => ⟨step.state, instructions, notices, some error⟩
      | .ok instruction =>
        decodeFrom table finish bound instruction.finish step.state
          (instructions.push instruction) notices
  else ⟨state, instructions, notices, none⟩

/-- The state in which decoding starts. -/
def startState (disassembly : Disassembly) : DecoderState :=
  ⟨disassembly.image, disassembly.symbols, Mode.ofAddress disassembly.image.origin⟩

/-- The first bit after the ROM. -/
def romFinish (disassembly : Disassembly) : BitAddress :=
  disassembly.image.origin + disassembly.image.sizeBits

/-- The number of bytes of the ROM. -/
def romBytes (disassembly : Disassembly) : Nat := (disassembly.image.sizeBits.toNat + 7) / 8

/-- The first pass: its disassembly afterwards, the number of instructions or an error, and what
it had to say.
-/
structure Decoding where
  disassembly : Disassembly
  outcome : Except DecodeError Nat
  report : Report

/-- Decodes the whole image anew. Up to an error, what has been decoded is kept. -/
def decodeAll (disassembly : Disassembly) : Decoding :=
  let run :=
    decodeFrom Sp0256.table disassembly.romFinish disassembly.romBytes
      disassembly.image.origin disassembly.startState #[] #[]
  let decoded : Disassembly :=
    { disassembly with
      image := run.state.image
      symbols := run.state.symbols
      instructions := run.instructions }
  match run.error with
  | some error => ⟨decoded, .error error, ⟨.decoding, run.notices.toList⟩⟩
  | none =>
    ⟨decoded, .ok run.instructions.size, ⟨.decoding,
      run.notices.toList ++ [.decodingDone run.instructions.size run.state.symbols.size]⟩⟩

-----------------------------------------------------------------------------------------
-- Second pass
-----------------------------------------------------------------------------------------

/-- Printed output: its lines, and the error that ended it early, if there was one. -/
structure Printed where
  lines : List String
  error : Option DecodeError

/-- The second pass: the disassembly afterwards, the listing, and what it had to say. -/
structure Rendered where
  disassembly : Disassembly
  printed : Printed
  report : Report

/-- Prints the listing. Labels that are missing are made on the way. -/
def render (disassembly : Disassembly) : Rendered :=
  let rendering :=
    Listing.extend disassembly.commentChar disassembly.image
      (Listing.banner disassembly.commentChar).toArray disassembly.symbols #[]
      disassembly.instructions.toList
  ⟨{ disassembly with symbols := rendering.symbols },
    ⟨rendering.lines.toList, rendering.error.map .symbol⟩,
    ⟨.listing, (rendering.added.map (·.notice)).toList⟩⟩

/-- Prints the symbol tables that are asked for. -/
def renderSymbols (disassembly : Disassembly) : String :=
  (if disassembly.dumpSymbols then
      disassembly.symbols.dumpByName ++ disassembly.symbols.dumpByAddress
    else "") ++
    if disassembly.dumpReferences then disassembly.symbols.dumpReferences else ""

end Disassembly

end SpeechRom
