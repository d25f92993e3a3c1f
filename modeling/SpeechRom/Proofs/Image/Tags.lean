import SpeechRom.Image.Tags
import SpeechRom.Proofs.Address

/-! Tags bit by bit. A range that sticks out of the image is cut down to the bits inside, and a
change to the tags of a range touches these bits and nothing else of the image.
-/

namespace SpeechRom

namespace TagSet

@[simp] theorem meets_union (left right wanted : TagSet)
    : (left ∪ right).meets wanted = (left.meets wanted || right.meets wanted) := by
  have spread : (left.mask ||| right.mask) &&& wanted.mask
      = (left.mask &&& wanted.mask) ||| (right.mask &&& wanted.mask) :=
    UInt8.toBitVec_inj.mp BitVec.and_or_distrib_right
  change ((left.mask ||| right.mask) &&& wanted.mask != 0)
    = (left.mask &&& wanted.mask != 0 || right.mask &&& wanted.mask != 0)
  rw [spread, Bool.eq_iff_iff, Bool.or_eq_true, bne_iff_ne, bne_iff_ne, bne_iff_ne, Ne,
    UInt8.or_eq_zero_iff, Decidable.not_and_iff_or_not]

@[simp] theorem empty_meets (wanted : TagSet) : empty.meets wanted = false := by
  simp [meets, empty]

end TagSet

namespace Image

/-- Whether a bit, given by its address as a number, lies in the image. -/
def Holds (image : Image) (bit : Nat) : Prop :=
  image.origin.toNat ≤ bit ∧ bit < image.origin.toNat + image.tags.size

instance (image : Image) (bit : Nat) : Decidable (image.Holds bit) :=
  inferInstanceAs (Decidable (_ ∧ _))

/-- The tags of a bit, none for bits outside the image. -/
def tagsAt (image : Image) (bit : Nat) : TagSet :=
  if image.origin.toNat ≤ bit then image.tags.getD (bit - image.origin.toNat) TagSet.empty
  else TagSet.empty

theorem getElem?_updateRange (change : TagSet → TagSet) (tags : Array TagSet)
    (start count index : Nat)
    : (updateRange change tags start count)[index]?
      = if start ≤ index ∧ index < start + count then tags[index]?.map change
        else tags[index]? := by
  induction count generalizing tags start with
  | zero => rw [updateRange, if_neg (by omega)]
  | succ count ih =>
      rw [updateRange, ih, Array.getElem?_modify]
      by_cases first : start = index
      · subst first
        rw [if_neg (by omega), if_pos rfl, if_pos (by omega)]
      · rw [if_neg first]
        by_cases later : start + 1 ≤ index ∧ index < start + 1 + count
        · rw [if_pos later, if_pos (by omega)]
        · rw [if_neg later, if_neg (by omega)]

/-- A change to the tags of a range reaches exactly the bits of the range in the image. -/
theorem tagsAt_updateTags (image : Image) (change : TagSet → TagSet) (address : BitAddress)
    (length : UInt32) (bit : Nat)
    : (image.updateTags change address length).tagsAt bit
      = if image.Holds bit ∧ address.toNat ≤ bit ∧ bit < address.toNat + length.toNat then
          change (image.tagsAt bit)
        else image.tagsAt bit := by
  have entry (index : Nat) (tags : Array TagSet)
      : tags.getD index TagSet.empty = (tags[index]?).getD TagSet.empty := by
    simp
  simp only [tagsAt, updateTags, entry, getElem?_updateRange, Holds]
  by_cases before : image.origin.toNat ≤ bit
  · rw [if_pos before, if_pos before]
    by_cases inside : bit - image.origin.toNat < image.tags.size
    · rw [Array.getElem?_eq_getElem inside]
      have start : image.rangeStart address = address.toNat - image.origin.toNat := rfl
      have count : image.rangeCount address length
          = min (address.toNat + length.toNat - image.origin.toNat) image.tags.size
            - (address.toNat - image.origin.toNat) := rfl
      by_cases range : address.toNat ≤ bit ∧ bit < address.toNat + length.toNat
      · rw [if_pos (by omega), if_pos (by omega)]
        rfl
      · rw [if_neg (by omega), if_neg (by omega)]
    · rw [Array.getElem?_eq_none (by omega), Option.map_none, ite_self, if_neg (by omega)]
  · rw [if_neg before, if_neg (by omega), if_neg before]

/-- Gathered tags meet a set exactly when what was there before does or those of some bit do. -/
theorem mergeRange_meets (tags : Array TagSet) (gathered wanted : TagSet) (start count : Nat)
    : (mergeRange tags gathered start count).meets wanted
      ↔ gathered.meets wanted
        ∨ ∃ index, start ≤ index ∧ index < start + count
            ∧ (tags.getD index TagSet.empty).meets wanted := by
  induction count generalizing gathered start with
  | zero =>
      simp only [mergeRange]
      refine ⟨.inl, ?_⟩
      rintro (met | ⟨index, above, below, -⟩)
      · exact met
      · omega
  | succ count ih =>
      simp only [mergeRange, ih, TagSet.meets_union, Bool.or_eq_true]
      constructor
      · rintro ((met | met) | ⟨index, above, below, met⟩)
        · exact .inl met
        · exact .inr ⟨start, by omega, by omega, met⟩
        · exact .inr ⟨index, by omega, by omega, met⟩
      · rintro (met | ⟨index, above, below, met⟩)
        · exact .inl (.inl met)
        by_cases first : index = start
        · exact .inl (.inr (first ▸ met))
        · exact .inr ⟨index, by omega, by omega, met⟩

/-- A range is tagged exactly when one of its bits in the image is, for tags other than being
inside.
-/
theorem isTagged_iff (image : Image) (address : BitAddress) (length : UInt32) {wanted : TagSet}
    (stored : TagSet.inside.meets wanted = false)
    : image.isTagged address length wanted
      ↔ ∃ bit, address.toNat ≤ bit ∧ bit < address.toNat + length.toNat
          ∧ image.Holds bit ∧ (image.tagsAt bit).meets wanted := by
  have merged : image.isTagged address length wanted
      ↔ (mergeRange image.tags TagSet.inside (image.rangeStart address)
          (image.rangeCount address length)).meets wanted := by
    unfold isTagged tagsOver
    split
    · rename_i count
      simp [count, mergeRange, stored]
    · rfl
  rw [merged, mergeRange_meets, stored]
  constructor
  · rintro (met | ⟨index, above, below, met⟩)
    · cases met
    simp only [rangeStart, rangeCount, rangeStop] at above below
    refine ⟨image.origin.toNat + index, by omega, by omega, ⟨by omega, by omega⟩, ?_⟩
    rw [tagsAt, if_pos (by omega), Nat.add_sub_cancel_left]
    exact met
  · rintro ⟨bit, above, below, ⟨lower, upper⟩, met⟩
    rw [tagsAt, if_pos lower] at met
    refine .inr ⟨bit - image.origin.toNat, ?_, ?_, met⟩
    · simp only [rangeStart]
      omega
    · simp only [rangeStart, rangeCount, rangeStop]
      omega

theorem isTagged_one_iff (image : Image) (address : BitAddress) {wanted : TagSet}
    (stored : TagSet.inside.meets wanted = false)
    : image.isTagged address 1 wanted
      ↔ image.Holds address.toNat ∧ (image.tagsAt address.toNat).meets wanted := by
  have one : (1 : UInt32).toNat = 1 := rfl
  rw [isTagged_iff image address 1 stored]
  constructor
  · rintro ⟨bit, above, below, inside, met⟩
    obtain rfl : bit = address.toNat := by omega
    exact ⟨inside, met⟩
  · rintro ⟨inside, met⟩
    exact ⟨address.toNat, Nat.le_refl _, by omega, inside, met⟩

/-- A new image is blank. -/
theorem create_ok {origin : BitAddress} {sizeBits : UInt32} {image : Image}
    (created : create origin sizeBits = .ok image)
    : image.origin = origin
      ∧ image.sizeBits = sizeBits
      ∧ image.words = Array.replicate (wordCount sizeBits) 0
      ∧ image.tags = Array.replicate (32 * wordCount sizeBits) TagSet.empty := by
  unfold create at created
  split at created
  · split at created
    · obtain rfl := Except.ok.inj created
      exact ⟨rfl, rfl, rfl, rfl⟩
    · cases created
  · cases created

theorem tagsAt_create {origin : BitAddress} {sizeBits : UInt32} {image : Image}
    (created : create origin sizeBits = .ok image) (bit : Nat)
    : image.tagsAt bit = TagSet.empty := by
  obtain ⟨-, -, -, tags⟩ := create_ok created
  have untagged (index : Nat) : image.tags.getD index TagSet.empty = TagSet.empty := by
    rw [tags, Array.getD_eq_getD_getElem?, Array.getElem?_replicate]
    split <;> rfl
  rw [tagsAt, untagged, ite_self]

/-- Two images agree in everything but their tags. -/
structure SameBits (left right : Image) : Prop where
  origin : left.origin = right.origin
  sizeBits : left.sizeBits = right.sizeBits
  words : left.words = right.words

theorem SameBits.refl (image : Image) : image.SameBits image := ⟨rfl, rfl, rfl⟩

theorem SameBits.symm {left right : Image} (same : left.SameBits right) : right.SameBits left :=
  ⟨same.origin.symm, same.sizeBits.symm, same.words.symm⟩

theorem SameBits.trans {left middle right : Image} (first : left.SameBits middle)
    (second : middle.SameBits right)
    : left.SameBits right :=
  ⟨first.origin.trans second.origin, first.sizeBits.trans second.sizeBits,
    first.words.trans second.words⟩

theorem SameBits.holds {left right : Image} (same : left.SameBits right) (bit : Nat)
    : left.Holds bit ↔ right.Holds bit := by
  rw [Holds, Holds, left.tags_size, right.tags_size, same.origin, same.words]

theorem SameBits.window {left right : Image} (same : left.SameBits right) (address : BitAddress)
    : left.window address = right.window address := by
  have word (index : Nat) : left.wordAt index = right.wordAt index := by
    rw [wordAt, wordAt, same.origin, same.words]
  simp only [Image.window, word]

theorem SameBits.readForward {left right : Image} (same : left.SameBits right)
    (address : BitAddress) (width : UInt32)
    : left.readForward address width = right.readForward address width := by
  simp only [Image.readForward, same.window]

theorem SameBits.readReversed {left right : Image} (same : left.SameBits right)
    (address : BitAddress) (width : UInt32)
    : left.readReversed address width = right.readReversed address width := by
  simp only [Image.readReversed, same.window]

theorem addTags_sameBits (image : Image) (address : BitAddress) (length : UInt32)
    (tags : TagSet)
    : (image.addTags address length tags).SameBits image :=
  ⟨rfl, rfl, rfl⟩

/-- Images with the same bits and the same tags are equal. -/
theorem ext_tagsAt {left right : Image} (bits : left.SameBits right)
    (tags : ∀ bit, left.tagsAt bit = right.tagsAt bit)
    : left = right := by
  have sizes : left.tags.size = right.tags.size := by
    rw [left.tags_size, right.tags_size, bits.words]
  have same : left.tags = right.tags := by
    refine Array.ext sizes fun index inside insideRight => ?_
    have tag := tags (left.origin.toNat + index)
    simpa only [tagsAt, bits.origin, Nat.le_add_right, if_true, Nat.add_sub_cancel_left,
      Array.getD_eq_getD_getElem?, Array.getElem?_eq_getElem inside,
      Array.getElem?_eq_getElem insideRight, Option.getD_some] using tag
  obtain ⟨_, _, _, _⟩ := left
  obtain ⟨_, _, _, _⟩ := right
  obtain ⟨rfl, rfl, rfl⟩ := bits
  obtain rfl := same
  rfl

/-- The end of an image lies below the top of the address space, so it is not wrapped. -/
theorem toNat_finish (image : Image)
    : image.finish.toNat = image.origin.toNat + 32 * image.words.size := by
  have top := image.below_top
  have size : (UInt32.ofNat (32 * image.words.size)).toNat = 32 * image.words.size :=
    UInt32.toNat_ofNat_of_lt (show 32 * image.words.size < 4294967296 by omega)
  rw [finish, BitAddress.toNat_add_of_lt (by omega), size]

theorem contains_iff (image : Image) (address : BitAddress)
    : image.contains address ↔ image.Holds address.toNat := by
  have size := image.tags_size
  have finish := image.toNat_finish
  rw [contains, Bool.and_eq_true, decide_eq_true_eq, decide_eq_true_eq, BitAddress.lt_iff, finish,
    Holds, size]
  rfl

end Image

end SpeechRom
