/-!
Tags that a bit of the image can carry, as sets held in one byte.
-/

namespace SpeechRom

/-- A set of tags, one bit of the mask for each. -/
structure TagSet where
  mask : UInt8
deriving DecidableEq, Repr, Inhabited

namespace TagSet

/-- No tag at all. -/
def empty : TagSet := ⟨0x00⟩

/-- Part of an opcode. -/
def code : TagSet := ⟨0x01⟩

/-- Part of an operand. -/
def operand : TagSet := ⟨0x02⟩

/-- Part of a data area. -/
def data : TagSet := ⟨0x04⟩

/-- The first bit of a data area. -/
def dataBoundary : TagSet := ⟨0x08⟩

/-- The first bit of an instruction that something leads to. -/
def branchTarget : TagSet := ⟨0x10⟩

/-- Padding up to a byte boundary. -/
def align : TagSet := ⟨0x20⟩

/-- Stored least significant bit first. -/
def reversed : TagSet := ⟨0x40⟩

/-- Inside the image. Queries report it; it is never stored. -/
def inside : TagSet := ⟨0x80⟩

/-- The tags of either set. -/
def union (left right : TagSet) : TagSet := ⟨left.mask ||| right.mask⟩

instance : Union TagSet := ⟨union⟩

/-- The tags of the first set that are not in the second. -/
def minus (left right : TagSet) : TagSet := ⟨left.mask &&& ~~~right.mask⟩

instance : SDiff TagSet := ⟨minus⟩

/-- Whether the first set has every tag of the second. -/
def hasAll (tags wanted : TagSet) : Bool := tags.mask &&& wanted.mask == wanted.mask

/-- Whether the two sets share a tag. -/
def meets (tags wanted : TagSet) : Bool := tags.mask &&& wanted.mask != 0

/-- The letter of each tag, in the order in which they are shown. -/
def letters : List (TagSet × Char) :=
  [(code, 'c'), (operand, 'o'), (data, 'd'), (dataBoundary, 'D'), (branchTarget, 'b'),
    (align, 'a'), (reversed, 'r'), (inside, 'l')]

/-- One character for each tag: its letter, or a dash when the tag is missing. -/
def text (tags : TagSet) : String :=
  String.ofList (letters.map fun entry => if tags.hasAll entry.1 then entry.2 else '-')

end TagSet

end SpeechRom
