import SpeechRom.Image.Basic

/-!
Tags of the bits of an image. Ranges of bits may stick out of the image on either side; only the
bits inside are touched or asked.
-/

namespace SpeechRom.Image

/-- Changes `count` entries from `start` on. -/
def updateRange (change : TagSet → TagSet) (tags : Array TagSet) (start : Nat) :
    Nat → Array TagSet
  | 0 => tags
  | count + 1 => updateRange change (tags.modify start change) (start + 1) count

@[simp] theorem size_updateRange (change : TagSet → TagSet) (tags : Array TagSet)
    (start count : Nat)
    : (updateRange change tags start count).size = tags.size := by
  induction count generalizing tags start with
  | zero => rfl
  | succ count ih => simp [updateRange, ih]

/-- Adds `count` entries from `start` on to what has been gathered. -/
def mergeRange (tags : Array TagSet) (gathered : TagSet) (start : Nat) : Nat → TagSet
  | 0 => gathered
  | count + 1 =>
    mergeRange tags (gathered ∪ tags.getD start TagSet.empty) (start + 1) count

/-- The place in the image of the first bit of a range that is not before the image. -/
def rangeStart (image : Image) (address : BitAddress) : Nat :=
  address.toNat - image.origin.toNat

/-- The place in the image just after the last bit of a range, at most the image's end. The end
of a range is not wrapped around.
-/
def rangeStop (image : Image) (address : BitAddress) (length : UInt32) : Nat :=
  min (address.toNat + length.toNat - image.origin.toNat) image.tags.size

/-- How many bits of a range lie in the image. -/
def rangeCount (image : Image) (address : BitAddress) (length : UInt32) : Nat :=
  image.rangeStop address length - image.rangeStart address

/-- Changes the tags of the bits of a range that lie in the image. -/
def updateTags (image : Image) (change : TagSet → TagSet) (address : BitAddress)
    (length : UInt32) : Image :=
  let start := image.rangeStart address
  let count := image.rangeCount address length
  { image with
    tags := updateRange change image.tags start count
    tags_size := by simpa using image.tags_size }

/-- Adds tags to the bits of a range. Being inside the image is not a tag that can be added. -/
def addTags (image : Image) (address : BitAddress) (length : UInt32) (tags : TagSet) : Image :=
  image.updateTags (· ∪ (tags \ TagSet.inside)) address length

/-- Takes tags from the bits of a range. -/
def removeTags (image : Image) (address : BitAddress) (length : UInt32) (tags : TagSet) :
    Image :=
  image.updateTags (· \ tags) address length

/-- All tags found on the bits of a range, with the mark for being inside the image when some
bit of the range is.
-/
def tagsOver (image : Image) (address : BitAddress) (length : UInt32) : TagSet :=
  match image.rangeCount address length with
  | 0 => TagSet.empty
  | count => mergeRange image.tags TagSet.inside (image.rangeStart address) count

/-- Whether some bit of a range carries one of the tags. -/
def isTagged (image : Image) (address : BitAddress) (length : UInt32) (tags : TagSet) : Bool :=
  (image.tagsOver address length).meets tags

end SpeechRom.Image
