import SpeechRom.Address
import SpeechRom.Fault
import SpeechRom.Notice
import SpeechRom.Tag

/-!
ROM images addressed in bits. An image starts at a bit address that is a multiple of 32 and holds
whole 32-bit words, the first byte of a word in its upper end, with one set of tags for each bit.
-/

namespace SpeechRom

/-- Why an image cannot be made or filled. -/
inductive ImageError where
  | unreadable (fault : FileFault)
  | misaligned (origin : BitAddress)
  | outOfRange (origin : BitAddress) (sizeBits : UInt32)
deriving DecidableEq, Repr

namespace ImageError

/-- A number in hexadecimal with small digits, as in `0x8010`. -/
def lowerHex (value : Nat) : String :=
  "0x" ++ String.ofList ((Text.hexChars value).map Char.toLower)

def message : ImageError → String
  | unreadable fault => "IO error: " ++ fault.message
  | misaligned origin =>
    s!"Bit memory origin {lowerHex origin.toNat} is not a multiple of 32"
  | outOfRange origin sizeBits =>
    s!"Bit memory of {sizeBits.toNat} bits at {lowerHex origin.toNat} " ++
      "runs past the 32-bit address space"

def causes (error : ImageError) : List String :=
  match error with
  | unreadable fault => [error.message, fault.message]
  | _ => [error.message]

end ImageError

/-- A ROM image. Bit `origin + n` is the bit `n` of the image, counted from the most significant
bit of its first byte. The whole image lies below the top of the 32-bit space.
-/
structure Image where
  origin : BitAddress
  sizeBits : UInt32
  words : Array UInt32
  tags : Array TagSet
  aligned : origin.toNat % 32 = 0
  words_size : words.size = (sizeBits.toNat + 31) / 32
  tags_size : tags.size = 32 * words.size
  below_top : origin.toNat + 32 * words.size < 4294967296

namespace Image

/-- The number of words that hold so many bits. -/
def wordCount (sizeBits : UInt32) : Nat := (sizeBits.toNat + 31) / 32

/-- A blank image. The origin has to be a multiple of 32, and the image has to end below the top
of the address space.
-/
def create (origin : BitAddress) (sizeBits : UInt32) : Except ImageError Image :=
  if aligned : origin.toNat % 32 = 0 then
    if below_top : origin.toNat + 32 * wordCount sizeBits < 4294967296 then
      .ok {
        origin
        sizeBits
        words := Array.replicate (wordCount sizeBits) 0
        tags := Array.replicate (32 * wordCount sizeBits) TagSet.empty
        aligned
        words_size := by simp [wordCount]
        tags_size := by simp
        below_top := by simpa using below_top
      }
    else .error (.outOfRange origin sizeBits)
  else .error (.misaligned origin)

/-- What there is to say about a new image. -/
def creationNotice (image : Image) : Notice :=
  .imageCreated image.words.size image.origin image.sizeBits.toNat

/-- The first bit after the image. -/
def finish (image : Image) : BitAddress :=
  image.origin + UInt32.ofNat (32 * image.words.size)

/-- Whether an address lies in the image. -/
def contains (image : Image) (address : BitAddress) : Bool :=
  decide (image.origin ≤ address) && decide (address < image.finish)

/-- How many bytes the image holds. -/
def capacity (image : Image) : Nat := 4 * image.words.size

/-- How many of the given bytes fit into the image. -/
def taken (image : Image) (bytes : Bytes) : Nat := min bytes.size image.capacity

/-- A byte of a file, zero past its end. -/
def byteAt (bytes : Bytes) (index : Nat) : UInt32 :=
  match bytes[index]? with
  | some byte => byte.toUInt32
  | none => 0

/-- Four bytes as one word, the first one in the upper end. -/
def packWord (bytes : Bytes) (index : Nat) : UInt32 :=
  (byteAt bytes (4 * index) <<< 24) ||| (byteAt bytes (4 * index + 1) <<< 16) |||
    (byteAt bytes (4 * index + 2) <<< 8) ||| byteAt bytes (4 * index + 3)

/-- Fills the image from its start. The last word that receives a byte is filled up with zeros,
later words are unchanged, and bytes that do not fit are left out.
-/
def load (image : Image) (bytes : Bytes) : Image :=
  let count := image.taken bytes
  { image with
    words := image.words.mapIdx fun index word =>
      if 4 * index < count then packWord bytes index else word
    words_size := by simpa using image.words_size
    tags_size := by simpa using image.tags_size
    below_top := by simpa using image.below_top }

/-- What there is to say about loading: bytes that did not fit. -/
def loadNotices (image : Image) (bytes : Bytes) : List Notice :=
  if image.taken bytes < bytes.size then
    [.imageOverfull image.capacity (bytes.size - image.taken bytes)]
  else []

/-- Loads what a file gave, if it could be read. -/
def loadFile (image : Image) (contents : Except FileFault Bytes) : Except ImageError Image :=
  match contents with
  | .ok bytes => .ok (image.load bytes)
  | .error fault => .error (.unreadable fault)

/-- The word at a word address, zero outside the image. -/
def wordAt (image : Image) (index : Nat) : UInt32 :=
  let base := image.origin.toNat / 32
  if base ≤ index then image.words.getD (index - base) 0 else 0

/-- The 32 bits from an address on. Bits outside the image are zero. -/
def window (image : Image) (address : BitAddress) : UInt32 :=
  let index := address.toNat / 32
  let shift := address.index &&& 31
  if shift = 0 then image.wordAt index
  else (image.wordAt index <<< shift) ||| (image.wordAt (index + 1) >>> (32 - shift))

/-- The number that `width` bits spell, the first bit as the most significant. At most 32 bits
are read.
-/
def readForward (image : Image) (address : BitAddress) (width : UInt32) : UInt32 :=
  let width := min width 32
  if width = 0 then 0 else image.window address >>> (32 - width)

/-- The word with its bits in the opposite order. -/
def reverseBits (word : UInt32) : UInt32 := UInt32.ofBitVec word.toBitVec.reverse

/-- The number that `width` bits spell, the first bit as the least significant. -/
def readReversed (image : Image) (address : BitAddress) (width : UInt32) : UInt32 :=
  let width := min width 32
  if width = 0 then 0 else reverseBits (image.window address &&& (0xFFFFFFFF <<< (32 - width)))

end Image

end SpeechRom
