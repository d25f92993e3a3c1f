import Mathlib.Data.Finset.Union
import Mathlib.Data.Fintype.Basic
import Mathlib.Order.Interval.Finset.Nat
import SpeechRom.Proofs.Image.Bytes

/-! Tags as one set of flags for each bit of the image. Whatever is done to an image, the flags of a
bit are those that were added to ranges over it and not taken away again, and a query gathers the
flags of the bits in its range.
-/

namespace SpeechRom

-----------------------------------------------------------------------------------------
-- Sets of flags
-----------------------------------------------------------------------------------------

namespace TagSet

/-- The tags of a set, each by its place in the mask. -/
def flags (tags : TagSet) : Finset (Fin 8) :=
  Finset.univ.filter fun flag => tags.mask.toBitVec.getLsbD flag.val

/-- The flag of being inside the image. -/
def insideFlag : Fin 8 := 7

theorem mem_flags {tags : TagSet} {flag : Fin 8}
    : flag ∈ tags.flags ↔ tags.mask.toBitVec.getLsbD flag.val := by
  simp [flags]

/-- A set of tags is given by its flags. -/
theorem ext_flags {left right : TagSet} (same : left.flags = right.flags)
    : left = right := by
  obtain ⟨left⟩ := left
  obtain ⟨right⟩ := right
  refine congrArg mk (UInt8.toBitVec_inj.mp (BitVec.eq_of_getLsbD_eq fun place inside => ?_))
  rw [Bool.eq_iff_iff]
  exact mem_flags.symm.trans ((Finset.ext_iff.mp same ⟨place, inside⟩).trans mem_flags)

@[simp] theorem flags_empty : empty.flags = ∅ := by decide

@[simp] theorem flags_inside : inside.flags = {insideFlag} := by decide

@[simp] theorem flags_union (left right : TagSet)
    : (left ∪ right).flags = left.flags ∪ right.flags := by
  ext flag
  have mask : (left ∪ right).mask = left.mask ||| right.mask := rfl
  simp [mem_flags, mask]

@[simp] theorem flags_minus (left right : TagSet)
    : (left \ right).flags = left.flags \ right.flags := by
  ext flag
  have mask : (left \ right).mask = left.mask &&& ~~~right.mask := rfl
  simp [mem_flags, mask]

theorem hasAll_inside_iff (tags : TagSet) : tags.hasAll inside ↔ insideFlag ∈ tags.flags := by
  have all : ∀ bits : BitVec 8,
      hasAll ⟨UInt8.ofBitVec bits⟩ inside = bits.getLsbD insideFlag.val := by
    decide +kernel
  rw [mem_flags, ← all]

end TagSet

-----------------------------------------------------------------------------------------
-- Flags of bits
-----------------------------------------------------------------------------------------

/-- The flags of each bit, given by its address as a number. -/
abbrev BitFlags := Nat → Finset (Fin 8)

namespace BitFlags

/-- No bit has a flag. -/
def blank : BitFlags := fun _ => ∅

/-- The bits of a range that belong to an image. The end of the range is not wrapped around. -/
def covered (bits : Finset Nat) (address : BitAddress) (length : UInt32) : Finset Nat :=
  bits.filter fun bit => address.toNat ≤ bit ∧ bit < address.toNat + length.toNat

/-- The flags after a request to an image of so many bits. Flags are added to the bits that a range
covers and taken from them; being inside the image is never added.
-/
def accept (bits : Finset Nat) (flags : BitFlags) : ImageRequest → BitFlags
  | .addTags address length tags => fun bit =>
    if bit ∈ covered bits address length then flags bit ∪ (tags.flags \ {TagSet.insideFlag})
    else flags bit
  | .removeTags address length tags => fun bit =>
    if bit ∈ covered bits address length then flags bit \ tags.flags else flags bit
  | .load _ | .copy => flags

/-- The flags after requests in turn. -/
def run (bits : Finset Nat) (flags : BitFlags) (requests : List ImageRequest) : BitFlags :=
  requests.foldl (accept bits) flags

/-- What a query over a range reports: the flags of the bits that it covers, and that there is such
a bit.
-/
def reported (bits : Finset Nat) (flags : BitFlags) (address : BitAddress) (length : UInt32)
    : Finset (Fin 8) :=
  if (covered bits address length).Nonempty then
    insert TagSet.insideFlag ((covered bits address length).biUnion flags)
  else ∅

theorem mem_covered {bits : Finset Nat} {address : BitAddress} {length : UInt32} {bit : Nat}
    : bit ∈ covered bits address length
      ↔ bit ∈ bits ∧ address.toNat ≤ bit ∧ bit < address.toNat + length.toNat :=
  Finset.mem_filter

/-- A query reports being inside just where its range covers a bit. -/
theorem insideFlag_mem_reported {bits : Finset Nat} {flags : BitFlags} {address : BitAddress}
    {length : UInt32}
    : TagSet.insideFlag ∈ reported bits flags address length
      ↔ (covered bits address length).Nonempty := by
  unfold reported
  split
  · rename_i filled
    exact iff_of_true (Finset.mem_insert_self _ _) filled
  · rename_i empty
    exact iff_of_false (Finset.notMem_empty _) empty

theorem accept_insideFlag {bits : Finset Nat} {flags : BitFlags}
    (never : ∀ bit, TagSet.insideFlag ∉ flags bit) (request : ImageRequest) (bit : Nat)
    : TagSet.insideFlag ∉ accept bits flags request bit := by
  cases request with
  | addTags address length tags =>
      simp only [accept]
      split
      · simp [never bit]
      · exact never bit
  | removeTags address length tags =>
      simp only [accept]
      split
      · simp [never bit]
      · exact never bit
  | load | copy => exact never bit

/-- Being inside the image is never among the flags, by induction on the requests. -/
theorem run_insideFlag {bits : Finset Nat} {flags : BitFlags}
    (never : ∀ bit, TagSet.insideFlag ∉ flags bit) (requests : List ImageRequest) (bit : Nat)
    : TagSet.insideFlag ∉ run bits flags requests bit := by
  unfold run
  induction requests generalizing flags with
  | nil => exact never bit
  | cons request rest ih => exact ih (accept_insideFlag never request)

end BitFlags

namespace Image

/-- The bits of an image. -/
def bits (image : Image) : Finset Nat :=
  Finset.Ico image.origin.toNat (image.origin.toNat + 32 * image.words.size)

theorem mem_bits {image : Image} {bit : Nat} : bit ∈ image.bits ↔ image.Holds bit := by
  rw [bits, Finset.mem_Ico, Holds, image.tags_size]

/-- The bits of an image carry these flags, and bits outside carry none. -/
def Carries (image : Image) (flags : BitFlags) : Prop :=
  ∀ bit, (image.tagsAt bit).flags = flags bit

-----------------------------------------------------------------------------------------
-- Requests
-----------------------------------------------------------------------------------------

theorem Carries.blank {origin : BitAddress} {sizeBits : UInt32} {image : Image}
    (created : Image.create origin sizeBits = .ok image)
    : image.Carries BitFlags.blank := by
  intro bit
  rw [tagsAt_create created]
  exact TagSet.flags_empty

/-- A change to the tags of a range is a change to the flags of the bits that the range covers. -/
theorem flags_updateTags (image : Image) (change : TagSet → TagSet) (address : BitAddress)
    (length : UInt32) (bit : Nat)
    : ((image.updateTags change address length).tagsAt bit).flags
      = if bit ∈ BitFlags.covered image.bits address length then
          (change (image.tagsAt bit)).flags
        else (image.tagsAt bit).flags := by
  rw [tagsAt_updateTags, apply_ite TagSet.flags]
  exact if_congr (by rw [BitFlags.mem_covered, mem_bits]) rfl rfl

theorem Carries.accept {image : Image} {flags : BitFlags} (carries : image.Carries flags)
    (request : ImageRequest)
    : (image.accept request).Carries (BitFlags.accept image.bits flags request)
      ∧ (image.accept request).bits = image.bits := by
  cases request with
  | load bytes => exact ⟨carries, by simp [bits, Image.accept, Image.load]⟩
  | addTags address length tags =>
      refine ⟨fun bit => ?_, rfl⟩
      rw [Image.accept, addTags, flags_updateTags, TagSet.flags_union, TagSet.flags_minus,
        TagSet.flags_inside, carries bit]
      rfl
  | removeTags address length tags =>
      refine ⟨fun bit => ?_, rfl⟩
      rw [Image.accept, removeTags, flags_updateTags, TagSet.flags_minus, carries bit]
      rfl
  | copy => exact ⟨carries, rfl⟩

/-- Whatever is done to an image, its bits carry the flags that the requests leave, by induction on
the requests.
-/
theorem Carries.run {image : Image} {flags : BitFlags} (carries : image.Carries flags)
    (requests : List ImageRequest)
    : (image.run requests).Carries (BitFlags.run image.bits flags requests)
      ∧ (image.run requests).bits = image.bits := by
  unfold Image.run BitFlags.run
  induction requests generalizing image flags with
  | nil => exact ⟨carries, rfl⟩
  | cons request rest ih =>
      obtain ⟨first, kept⟩ := carries.accept request
      obtain ⟨last, same⟩ := ih first
      rw [kept] at last same
      exact ⟨last, same⟩

-----------------------------------------------------------------------------------------
-- Queries
-----------------------------------------------------------------------------------------

/-- Gathered tags have the flags of all entries that were passed over. -/
theorem flags_mergeRange (tags : Array TagSet) (gathered : TagSet) (start count : Nat)
    : (mergeRange tags gathered start count).flags
      = gathered.flags
        ∪ (Finset.Ico start (start + count)).biUnion
            fun index => (tags.getD index TagSet.empty).flags := by
  induction count generalizing gathered start with
  | zero => simp [mergeRange]
  | succ count ih =>
      have first : Finset.Ico start (start + (count + 1))
          = insert start (Finset.Ico (start + 1) (start + 1 + count)) := by
        ext index
        simp only [Finset.mem_Ico, Finset.mem_insert]
        omega
      rw [mergeRange, ih, TagSet.flags_union, first, Finset.biUnion_insert, Finset.union_assoc]

/-- A range covers as many bits of the image as the query passes over, none where it passes over
none.
-/
theorem covered_nonempty_iff (image : Image) (address : BitAddress) (length : UInt32)
    : (BitFlags.covered image.bits address length).Nonempty
      ↔ image.rangeCount address length ≠ 0 := by
  have size := image.tags_size
  simp only [Finset.Nonempty, BitFlags.mem_covered, bits, Finset.mem_Ico, rangeCount, rangeStop,
    rangeStart]
  constructor
  · rintro ⟨bit, inside, within⟩
    omega
  · intro positive
    exact ⟨max image.origin.toNat address.toNat, by omega, by omega⟩

/-- A query reports what the flags of the bits say. Witness: the entries that it passes over are
those of the covered bits, counted from the origin.
-/
theorem Carries.flags_tagsOver {image : Image} {flags : BitFlags} (carries : image.Carries flags)
    (address : BitAddress) (length : UInt32)
    : (image.tagsOver address length).flags
      = BitFlags.reported image.bits flags address length := by
  have covers := image.covered_nonempty_iff address length
  unfold tagsOver BitFlags.reported
  split
  · rename_i outside
    rw [if_neg fun filled => covers.mp filled outside]
    exact TagSet.flags_empty
  · rename_i count positive
    have entry (index : Nat)
        : (image.tags.getD index TagSet.empty).flags = flags (image.origin.toNat + index) := by
      rw [← carries, tagsAt, if_pos (Nat.le_add_right _ _), Nat.add_sub_cancel_left]
    have size := image.tags_size
    rw [if_pos (covers.mpr positive), flags_mergeRange, TagSet.flags_inside, Finset.insert_eq]
    congr 1
    ext flag
    simp only [Finset.mem_biUnion, BitFlags.mem_covered, bits, Finset.mem_Ico, entry, rangeCount,
      rangeStop, rangeStart]
    constructor
    · rintro ⟨index, within, member⟩
      exact ⟨image.origin.toNat + index, by omega, member⟩
    · rintro ⟨bit, within, member⟩
      refine ⟨bit - image.origin.toNat, by omega, ?_⟩
      rwa [Nat.add_sub_cancel' within.1.1]

-----------------------------------------------------------------------------------------
-- Reads
-----------------------------------------------------------------------------------------

theorem SameBits.load {left right : Image} (same : left.SameBits right) (bytes : Bytes)
    : (left.load bytes).SameBits (right.load bytes) := by
  have fits : left.taken bytes = right.taken bytes := by
    rw [taken, taken, capacity, capacity, same.words]
  refine ⟨same.origin, same.sizeBits, ?_⟩
  change left.words.mapIdx _ = right.words.mapIdx _
  rw [fits, same.words]

end Image

/-- Whether a request loads bytes. -/
def ImageRequest.isLoad : ImageRequest → Bool
  | .load _ => true
  | .addTags .. | .removeTags .. | .copy => false

namespace Image

/-- Without the requests about tags, the bits of an image are the same, by induction on the
requests.
-/
theorem SameBits.run_loads {left right : Image} (same : left.SameBits right)
    (requests : List ImageRequest)
    : (left.run requests).SameBits (right.run (requests.filter (·.isLoad))) := by
  unfold run
  induction requests generalizing left right with
  | nil => exact same
  | cons request rest ih =>
      cases request with
      | load bytes => exact ih (same.load bytes)
      | addTags address length tags => exact ih ((addTags_sameBits ..).trans same)
      | removeTags address length tags =>
          have kept : (left.removeTags address length tags).SameBits left := ⟨rfl, rfl, rfl⟩
          exact ih (kept.trans same)
      | copy => exact ih same

/-- Whatever is done to a new image, its tags are one set of flags for each of its bits: ranges add
flags and take them away on exactly the bits that they cover, and being inside is never among them.
A query reports the flags of the bits that it covers, and being inside just where there are such
bits. Reads depend on the loads alone, and no index is ever out of range.
-/
theorem run_carries_flags {origin : BitAddress} {sizeBits : UInt32} {image : Image}
    (created : Image.create origin sizeBits = .ok image) (requests : List ImageRequest)
    : let current := image.run requests
      let bits := Finset.Ico origin.toNat (origin.toNat + 32 * ((sizeBits.toNat + 31) / 32))
      let flags := BitFlags.run bits BitFlags.blank requests
      (∀ bit, (current.tagsAt bit).flags = flags bit)
      ∧ (∀ bit, TagSet.insideFlag ∉ flags bit)
      ∧ (∀ address length,
          (current.tagsOver address length).flags = BitFlags.reported bits flags address length
          ∧ ((current.tagsOver address length).hasAll TagSet.inside
            ↔ ∃ bit ∈ bits, address.toNat ≤ bit ∧ bit < address.toNat + length.toNat))
      ∧ (∀ address width,
          let loaded := image.run (requests.filter (·.isLoad))
          current.readForward address width = loaded.readForward address width
          ∧ current.readReversed address width = loaded.readReversed address width)
      ∧ current.IndicesInside := by
  intro current bits flags
  obtain ⟨start, -, words, -⟩ := create_ok created
  have own : image.bits = bits := by
    rw [Image.bits, start, words, Array.size_replicate, wordCount]
  obtain ⟨carries, kept⟩ := (Carries.blank created).run requests
  rw [own] at carries kept
  have never : ∀ bit, TagSet.insideFlag ∉ flags bit :=
    BitFlags.run_insideFlag (fun _ => Finset.notMem_empty _) requests
  have same : current.SameBits (image.run (requests.filter (·.isLoad))) :=
    (SameBits.refl image).run_loads requests
  refine ⟨carries, never, fun address length => ?_, fun address width => ?_, current.indicesInside⟩
  · have reported := carries.flags_tagsOver address length
    rw [kept] at reported
    refine ⟨reported, ?_⟩
    rw [TagSet.hasAll_inside_iff, reported, BitFlags.insideFlag_mem_reported]
    exact exists_congr fun bit => BitFlags.mem_covered
  · exact ⟨same.readForward address width, same.readReversed address width⟩

/-- Code over the origin of an image at bit 64, operands from bit 126 on past the top of the address
space, and code taken away again up to bit 66. A query across the origin finds what is left of the
code, one that ends at the origin finds nothing, and one past the end finds the operands.
-/
theorem run_carries_flags_straddling
    : let requests : List ImageRequest :=
        [.addTags ⟨60⟩ 9 (TagSet.code ∪ TagSet.inside), .load #[0xFF, 0x80],
          .addTags ⟨126⟩ 0xFFFFFFFF TagSet.operand,
          .removeTags ⟨0⟩ 66 (TagSet.code ∪ TagSet.inside), .copy]
      ∃ image,
        Image.create ⟨64⟩ 48 = .ok image
        ∧ ((image.run requests).tagsOver ⟨62⟩ 4).flags = {TagSet.insideFlag}
        ∧ ((image.run requests).tagsOver ⟨62⟩ 5).flags = {0, TagSet.insideFlag}
        ∧ ((image.run requests).tagsOver ⟨0⟩ 64).flags = ∅
        ∧ ((image.run requests).tagsOver ⟨127⟩ 0xFFFFFFFF).flags = {1, TagSet.insideFlag}
        ∧ (image.run requests).readForward ⟨64⟩ 16
          = (image.run [.load #[0xFF, 0x80]]).readForward ⟨64⟩ 16
        ∧ (image.run requests).IndicesInside := by
  intro requests
  have created : Image.create ⟨64⟩ 48 = .ok _ := rfl
  obtain ⟨-, -, queries, reads, inside⟩ := run_carries_flags created requests
  exact ⟨_, created, (queries ⟨62⟩ 4).1.trans (by decide +kernel),
    (queries ⟨62⟩ 5).1.trans (by decide +kernel), (queries ⟨0⟩ 64).1.trans (by decide +kernel),
    (queries ⟨127⟩ 0xFFFFFFFF).1.trans (by decide +kernel), (reads ⟨64⟩ 16).1, inside⟩

end Image

end SpeechRom
