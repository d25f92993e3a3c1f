import SpeechRom.Proofs.Annotation.Grammar
import SpeechRom.Proofs.Decode.Tiling
import SpeechRom.Proofs.Image.Flags

/-! Tags of annotations, bit by bit. Every annotation says which bits it tags; a file tags the bits
of an image that one of its annotations speaks of, whatever their order, and ranges that stick out
of the image are cut down to it.
-/

namespace SpeechRom

-----------------------------------------------------------------------------------------
-- Addresses of annotations
-----------------------------------------------------------------------------------------

/-- All bytes have addresses of 16 bits, and no range ends before it starts. -/
def Annotation.Addressable : Annotation → Prop
  | .code range | .data range | .operand range => range.first ≤ range.last ∧ range.last ≤ 0xFFFF
  | .origin byte | .symbol _ byte => byte ≤ 0xFFFF

namespace Annotations

theorem IsNumber.le {word : List Char} {byte : UInt32} (number : IsNumber word byte.toNat)
    : byte ≤ 0xFFFF := by
  obtain ⟨-, -, -, -, -, -, -, -, small⟩ := number
  exact UInt32.le_iff_toNat_le.mpr small

theorem IsRange.addressable {arguments : List (List Char)} {range : ByteRange}
    (bytes : IsRange arguments range)
    : range.first ≤ range.last ∧ range.last ≤ 0xFFFF := by
  cases bytes with
  | single number => exact ⟨UInt32.le_refl _, number.le⟩
  | joined _ lastNumber ordered | pair _ lastNumber ordered => exact ⟨ordered, lastNumber.le⟩

theorem Keyword.Denotes.addressable {keyword : Keyword} {arguments : List (List Char)}
    {hint : Annotation} (denotes : keyword.Denotes arguments hint)
    : hint.Addressable := by
  cases denotes with
  | code bytes | data bytes | operand bytes => exact bytes.addressable
  | origin number | symbol number => exact number.le

/-- What lines contribute is addressable, by induction on them. -/
theorem addressable_of_contributes {lines : List (List Char)} {said : List (List Annotation)}
    (shares : List.Forall₂ Contributes lines said)
    : ∀ hint ∈ said.flatten, hint.Addressable := by
  induction shares with
  | nil => exact fun _ member => absurd member List.not_mem_nil
  | cons share _ ih =>
      refine List.forall_mem_append.mpr ⟨?_, ih⟩
      cases share with
      | nothing => exact fun _ member => absurd member List.not_mem_nil
      | hint _ denotes => exact List.forall_mem_singleton.mpr denotes.addressable

/-- A file gives only annotations with addresses of 16 bits. -/
theorem parse_addressable {text : String} {annotations : Annotations}
    (parsed : (parse text).outcome = .ok annotations)
    : ∀ hint ∈ annotations, hint.Addressable := by
  have reads := readLines_readsTo 1 [] [] (Text.fileLines text)
  rw [← parse_eq_fileLines, parsed] at reads
  cases reads with
  | finished shares => exact addressable_of_contributes shares

end Annotations

-----------------------------------------------------------------------------------------
-- Tags of one annotation
-----------------------------------------------------------------------------------------

/-- Whether a byte lies in a range. -/
def ByteRange.Covers (range : ByteRange) (byte : Nat) : Prop :=
  range.first.toNat ≤ byte ∧ byte ≤ range.last.toNat

/-- The tags that an annotation puts on a bit, given by its address as a number. Areas are tagged in
all their bits; a data area is marked where it begins, and a symbol where its byte does.
-/
inductive Annotation.Puts : Annotation → Nat → TagSet → Prop
  | code {range : ByteRange} {bit : Nat} (inside : range.Covers (bit / 8))
    : Puts (.code range) bit TagSet.code
  | operand {range : ByteRange} {bit : Nat} (inside : range.Covers (bit / 8))
    : Puts (.operand range) bit TagSet.operand
  | data {range : ByteRange} {bit : Nat} (inside : range.Covers (bit / 8))
    : Puts (.data range) bit TagSet.data
  | dataBoundary {range : ByteRange} {bit : Nat} (first : bit = 8 * range.first.toNat)
    : Puts (.data range) bit TagSet.dataBoundary
  | branchTarget {name : String} {byte : UInt32} {bit : Nat} (first : bit = 8 * byte.toNat)
    : Puts (.symbol name byte) bit TagSet.branchTarget

namespace Annotation

@[simp] theorem puts_code_iff {range : ByteRange} {bit : Nat} {tags : TagSet}
    : (code range).Puts bit tags ↔ tags = TagSet.code ∧ range.Covers (bit / 8) := by
  constructor
  · intro puts
    cases puts with
    | code inside => exact ⟨rfl, inside⟩
  · rintro ⟨rfl, inside⟩
    exact .code inside

@[simp] theorem puts_operand_iff {range : ByteRange} {bit : Nat} {tags : TagSet}
    : (operand range).Puts bit tags ↔ tags = TagSet.operand ∧ range.Covers (bit / 8) := by
  constructor
  · intro puts
    cases puts with
    | operand inside => exact ⟨rfl, inside⟩
  · rintro ⟨rfl, inside⟩
    exact .operand inside

@[simp] theorem puts_data_iff {range : ByteRange} {bit : Nat} {tags : TagSet}
    : (data range).Puts bit tags
      ↔ tags = TagSet.data ∧ range.Covers (bit / 8)
        ∨ tags = TagSet.dataBoundary ∧ bit = 8 * range.first.toNat := by
  constructor
  · intro puts
    cases puts with
    | data inside => exact .inl ⟨rfl, inside⟩
    | dataBoundary first => exact .inr ⟨rfl, first⟩
  · rintro (⟨rfl, inside⟩ | ⟨rfl, first⟩)
    · exact .data inside
    · exact .dataBoundary first

@[simp] theorem puts_symbol_iff {name : String} {byte : UInt32} {bit : Nat} {tags : TagSet}
    : (symbol name byte).Puts bit tags ↔ tags = TagSet.branchTarget ∧ bit = 8 * byte.toNat := by
  constructor
  · intro puts
    cases puts with
    | branchTarget first => exact ⟨rfl, first⟩
  · rintro ⟨rfl, first⟩
    exact .branchTarget first

@[simp] theorem not_puts_origin {byte : UInt32} {bit : Nat} {tags : TagSet}
    : ¬ (origin byte).Puts bit tags := nofun

end Annotation

/-- Tags are added to the bits of a range in the image, being inside excepted. -/
theorem Image.mem_flags_addTags {image : Image} {address : BitAddress} {length : UInt32}
    {tags : TagSet} (stored : TagSet.insideFlag ∉ tags.flags) {bit : Nat} {flag : Fin 8}
    : flag ∈ ((image.addTags address length tags).tagsAt bit).flags
      ↔ flag ∈ (image.tagsAt bit).flags
        ∨ image.Holds bit
          ∧ (address.toNat ≤ bit ∧ bit < address.toNat + length.toNat) ∧ flag ∈ tags.flags := by
  have other : flag ∈ tags.flags → flag ≠ TagSet.insideFlag := by
    rintro member rfl
    exact stored member
  rw [addTags, tagsAt_updateTags]
  split
  · rename_i range
    simp only [TagSet.flags_union, TagSet.flags_minus, TagSet.flags_inside, Finset.mem_union,
      Finset.mem_sdiff, Finset.mem_singleton, range, true_and, and_true]
    exact or_congr_right (and_iff_left_of_imp other)
  · rename_i outside
    exact (or_iff_left fun tagged => outside ⟨tagged.1, tagged.2.1⟩).symm

namespace Annotations

/-- The bits of an addressable range are those of its bytes. -/
theorem covers_iff {range : ByteRange} (ordered : range.first ≤ range.last)
    (small : range.last ≤ 0xFFFF) (bit : Nat)
    : range.start.toNat ≤ bit ∧ bit < range.start.toNat + range.lengthBits.toNat
      ↔ range.Covers (bit / 8) := by
  have order : range.first.toNat ≤ range.last.toNat := UInt32.le_iff_toNat_le.mp ordered
  have bound : range.last.toNat ≤ 65535 := UInt32.le_iff_toNat_le.mp small
  have length : range.lengthBits.toNat = (range.last.toNat - range.first.toNat + 1) * 8 := by
    have difference := UInt32.toNat_sub_of_le _ _ ordered
    rw [ByteRange.lengthBits, UInt32.toNat_mul, UInt32.toNat_add, difference]
    simp only [UInt32.reduceToNat, Nat.reducePow]
    omega
  have start : range.start.toNat = 8 * range.first.toNat :=
    BitAddress.toNat_ofByte_of_le (UInt32.le_trans ordered small)
  rw [length, start, ByteRange.Covers]
  omega

/-- The first bit of a byte with an address of 16 bits is the only one in a range of one bit. -/
theorem first_iff {byte : UInt32} (small : byte ≤ 0xFFFF) (bit : Nat)
    : (BitAddress.ofByte byte).toNat ≤ bit
        ∧ bit < (BitAddress.ofByte byte).toNat + (1 : UInt32).toNat
      ↔ bit = 8 * byte.toNat := by
  have one : (1 : UInt32).toNat = 1 := rfl
  rw [BitAddress.toNat_ofByte_of_le small, one]
  omega

/-- An annotation tags the bits of the image that it speaks of. -/
theorem mem_flags_tagOne {hint : Annotation} (addressable : hint.Addressable) {image : Image}
    {bit : Nat} {flag : Fin 8}
    : flag ∈ ((tagOne image hint).tagsAt bit).flags
      ↔ flag ∈ (image.tagsAt bit).flags
        ∨ image.Holds bit ∧ ∃ tags, hint.Puts bit tags ∧ flag ∈ tags.flags := by
  cases hint with
  | code range =>
      rw [tagOne, Image.mem_flags_addTags (by decide), covers_iff addressable.1 addressable.2]
      simp [and_assoc]
  | operand range =>
      rw [tagOne, Image.mem_flags_addTags (by decide), covers_iff addressable.1 addressable.2]
      simp [and_assoc]
  | data range =>
      obtain ⟨ordered, small⟩ := addressable
      rw [tagOne, Image.mem_flags_addTags (by decide), Image.mem_flags_addTags (by decide),
        covers_iff ordered small, ByteRange.start, first_iff (UInt32.le_trans ordered small),
        (Image.addTags_sameBits ..).holds]
      simp [and_assoc, or_and_right, exists_or, and_or_left, or_assoc]
  | symbol name byte =>
      rw [tagOne, Image.mem_flags_addTags (by decide), first_iff addressable]
      simp [and_assoc]
  | origin byte => simp [tagOne]

/-- Annotations tag the bits of the image that one of them speaks of, by induction on them. -/
theorem mem_flags_tagImage {annotations : Annotations}
    (addressable : ∀ hint ∈ annotations, hint.Addressable) {image : Image} {bit : Nat}
    {flag : Fin 8}
    : flag ∈ ((annotations.tagImage image).tagsAt bit).flags
      ↔ flag ∈ (image.tagsAt bit).flags
        ∨ image.Holds bit
          ∧ ∃ hint ∈ annotations, ∃ tags, hint.Puts bit tags ∧ flag ∈ tags.flags := by
  unfold tagImage
  induction annotations generalizing image with
  | nil => simp
  | cons hint rest ih =>
      obtain ⟨first, later⟩ := List.forall_mem_cons.mp addressable
      have holds := (tagImage_sameBits image [hint]).holds bit
      change (tagOne image hint).Holds bit ↔ _ at holds
      rw [List.foldl_cons, ih later, mem_flags_tagOne first, holds, List.exists_mem_cons_iff,
        and_or_left, or_assoc]

/-- Only which annotations there are counts, not where and how often they stand. -/
theorem tagImage_congr {annotations others : Annotations}
    (addressable : ∀ hint ∈ annotations, hint.Addressable)
    (same : ∀ hint, hint ∈ others ↔ hint ∈ annotations) (image : Image)
    : others.tagImage image = annotations.tagImage image := by
  have bits := (others.tagImage_sameBits image).trans (annotations.tagImage_sameBits image).symm
  refine Image.ext_tagsAt bits fun bit => TagSet.ext_flags (Finset.ext fun flag => ?_)
  rw [mem_flags_tagImage addressable,
    mem_flags_tagImage fun hint member => addressable hint ((same hint).mp member)]
  simp only [same]

/-- Tagging an image again adds nothing. -/
theorem tagImage_twice {annotations : Annotations}
    (addressable : ∀ hint ∈ annotations, hint.Addressable) (image : Image)
    : annotations.tagImage (annotations.tagImage image) = annotations.tagImage image := by
  have again : (annotations ++ annotations).tagImage image
      = annotations.tagImage (annotations.tagImage image) := List.foldl_append
  rw [← again]
  exact tagImage_congr addressable (by simp) image

/-- The annotations of a file tag an image exactly as they say: a bit gains code, operand or data
where its byte lies in such an area, the mark of a data area where one begins, the mark of a branch
target where the byte of a symbol does, and nothing else; bits outside the image gain nothing, and
the bits themselves stay. So the tags depend neither on the order of the annotations nor on their
repetition, and tagging the image again changes nothing.
-/
theorem tagImage_puts {text : String} {annotations : Annotations}
    (parsed : (parse text).outcome = .ok annotations) (image : Image)
    : let tagged := annotations.tagImage image
      (∀ bit flag,
        flag ∈ (tagged.tagsAt bit).flags
        ↔ flag ∈ (image.tagsAt bit).flags
          ∨ image.Holds bit
            ∧ ∃ hint ∈ annotations, ∃ tags, hint.Puts bit tags ∧ flag ∈ tags.flags)
      ∧ tagged.SameBits image
      ∧ (∀ others : Annotations, (∀ hint, hint ∈ others ↔ hint ∈ annotations)
          → others.tagImage image = tagged)
      ∧ annotations.tagImage tagged = tagged := by
  have addressable := parse_addressable parsed
  exact ⟨fun _ _ => mem_flags_tagImage addressable, annotations.tagImage_sameBits image,
    fun _ same => tagImage_congr addressable same image, tagImage_twice addressable image⟩

/-- An image at byte `$1000` with a data area that begins two bytes before it, another one inside it
and code up to the top of the 16-bit space. The first area tags its tail and marks no beginning.
-/
theorem tagImage_puts_tail
    : let annotations : Annotations :=
        [.data ⟨0xFFE, 0x1001⟩, .code ⟨0x1000, 0xFFFF⟩, .symbol "A" 0x1001, .data ⟨0x1001, 0x1001⟩]
      ∃ image,
        (parse "data FFE-1001\ncode 1000 FFFF\nsym A 1001\ndata 1001").outcome = .ok annotations
        ∧ Image.create ⟨0x8000⟩ 32 = .ok image
        ∧ ((annotations.tagImage image).tagsAt 0x8000).flags = {0, 2}
        ∧ ((annotations.tagImage image).tagsAt 0x8008).flags = {0, 2, 3, 4}
        ∧ tagImage image annotations.reverse = annotations.tagImage image
        ∧ annotations.tagImage (annotations.tagImage image) = annotations.tagImage image := by
  intro annotations
  have parsed : (parse "data FFE-1001\ncode 1000 FFFF\nsym A 1001\ndata 1001").outcome
      = .ok annotations := by
    decide +kernel
  obtain ⟨image, created, first, second⟩
      : ∃ image,
          Image.create ⟨0x8000⟩ 32 = .ok image ∧ image.Holds 0x8000 ∧ image.Holds 0x8008 :=
    ⟨_, rfl, by decide, by decide⟩
  obtain ⟨puts, -, order, again⟩ := tagImage_puts parsed image
  refine ⟨image, parsed, created, ?_, ?_, order _ fun _ => List.mem_reverse, again⟩
  · have said (flag : Fin 8)
        : (∃ hint ∈ annotations, ∃ tags, hint.Puts 0x8000 tags ∧ flag ∈ tags.flags)
          ↔ flag ∈ TagSet.data.flags ∨ flag ∈ TagSet.code.flags := by
      simp [annotations, ByteRange.Covers]
    ext flag
    rw [puts, Image.tagsAt_create created, said, and_iff_right first]
    revert flag
    decide
  · have said (flag : Fin 8)
        : (∃ hint ∈ annotations, ∃ tags, hint.Puts 0x8008 tags ∧ flag ∈ tags.flags)
          ↔ flag ∈ TagSet.data.flags ∨ flag ∈ TagSet.code.flags ∨ flag ∈ TagSet.branchTarget.flags
            ∨ flag ∈ TagSet.data.flags ∨ flag ∈ TagSet.dataBoundary.flags := by
      simp [annotations, ByteRange.Covers]
    ext flag
    rw [puts, Image.tagsAt_create created, said, and_iff_right second]
    revert flag
    decide

end Annotations

end SpeechRom
