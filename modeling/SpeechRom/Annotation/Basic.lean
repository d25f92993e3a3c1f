import SpeechRom.Address
import SpeechRom.Image.Tags
import SpeechRom.Symbol.Table

/-!
Annotations: hints about a ROM image that are known beforehand. They name areas of code, operands
and data, the origin of the image, and symbols.
-/

namespace SpeechRom

/-- A range of byte addresses, both ends included. -/
structure ByteRange where
  first : UInt32
  last : UInt32
deriving DecidableEq, Repr

namespace ByteRange

/-- The first bit of the range. -/
def start (range : ByteRange) : BitAddress := BitAddress.ofByte range.first

/-- The number of bits in the range. -/
def lengthBits (range : ByteRange) : UInt32 := (range.last - range.first + 1) * 8

/-- A byte address as it is written, as in `$1000`. -/
def byteText (byte : UInt32) : String := "$" ++ Text.hexPadded 4 byte.toNat

/-- The range as it is written: one address, or two with a dash between them. -/
def text (range : ByteRange) : String :=
  if range.first = range.last then byteText range.first
  else byteText range.first ++ "-" ++ byteText range.last

end ByteRange

/-- One hint. -/
inductive Annotation where
  | code (range : ByteRange)
  | data (range : ByteRange)
  | operand (range : ByteRange)
  | origin (byte : UInt32)
  | symbol (name : String) (byte : UInt32)
deriving DecidableEq, Repr

/-- The hints of a file, in order. -/
abbrev Annotations := List Annotation

namespace Annotations

/-- The byte address that an annotation gives as the origin. -/
def originOf? : Annotation → Option UInt32
  | .origin byte => some byte
  | _ => none

/-- The origin of the image. The last one counts. -/
def origin? (annotations : Annotations) : Option UInt32 :=
  annotations.reverse.findSome? originOf?

/-- A table after the definition of symbols, those that were added, and the error that ended
the definition early, if there was one.
-/
structure Definitions where
  table : SymbolTable
  added : List Symbol
  error : Option SymbolError

/-- Defines the symbols among the annotations in order, up to the first one that contradicts an
earlier definition.
-/
def defineSymbols (table : SymbolTable) : Annotations → Definitions
  | [] => ⟨table, [], none⟩
  | .symbol name byte :: rest =>
    match table.define name (BitAddress.ofByte byte) with
    | .error error => ⟨table, [], some error⟩
    | .ok definition =>
      let later := defineSymbols definition.table rest
      { later with added := definition.added.toList ++ later.added }
  | _ :: rest => defineSymbols table rest

/-- Tags the bits that one annotation speaks of. -/
def tagOne (image : Image) : Annotation → Image
  | .code range => image.addTags range.start range.lengthBits TagSet.code
  | .operand range => image.addTags range.start range.lengthBits TagSet.operand
  | .data range =>
    (image.addTags range.start range.lengthBits TagSet.data).addTags range.start 1
      TagSet.dataBoundary
  | .symbol _ byte => image.addTags (BitAddress.ofByte byte) 1 TagSet.branchTarget
  | .origin _ => image

/-- Tags the bits that the annotations speak of. -/
def tagImage (image : Image) (annotations : Annotations) : Image :=
  annotations.foldl tagOne image

end Annotations

end SpeechRom
