import Mathlib.Algebra.BigOperators.Intervals
import SpeechRom.Proofs.Image.Tags

/-! Reads bit by bit. A read spells the bits from its address on, whichever words they lie in, and
bits outside the image are zero on both sides.
-/

namespace SpeechRom

open Finset (range)

/-- The lower bits of a number add up to its remainder, by induction on how many they are. -/
theorem sum_testBit (value width : Nat)
    : ∑ i ∈ range width, (value.testBit i).toNat * 2 ^ i = value % 2 ^ width := by
  induction width with
  | zero => rw [Finset.sum_range_zero, Nat.pow_zero, Nat.mod_one]
  | succ width ih =>
      rw [Finset.sum_range_succ, ih, Nat.toNat_testBit, Nat.mod_pow_succ, Nat.mul_comm]

/-- A number without bits from a place on is the sum of those below. -/
theorem eq_sum_testBit (value width : Nat)
    (above : ∀ place, width ≤ place → value.testBit place = false)
    : value = ∑ i ∈ range width, (value.testBit i).toNat * 2 ^ i := by
  rw [sum_testBit, Nat.mod_eq_of_lt (Nat.lt_pow_two_of_testBit value above)]

/-- A shift to the left by less than a word moves bits up, and those above the word are lost. -/
theorem testBit_shiftLeft (word : UInt32) {shift : UInt32} (less : shift.toNat < 32) {place : Nat}
    (inside : place < 32)
    : (word <<< shift).toNat.testBit place
      = (decide (shift.toNat ≤ place) && word.toNat.testBit (place - shift.toNat)) := by
  rw [UInt32.toNat_shiftLeft, Nat.mod_eq_of_lt less, Nat.testBit_mod_two_pow,
    Nat.testBit_shiftLeft, decide_eq_true inside, Bool.true_and]

/-- A shift to the right by less than a word moves bits down. -/
theorem testBit_shiftRight (word : UInt32) {shift : UInt32} (less : shift.toNat < 32) (place : Nat)
    : (word >>> shift).toNat.testBit place = word.toNat.testBit (shift.toNat + place) := by
  rw [UInt32.toNat_shiftRight, Nat.mod_eq_of_lt less, Nat.testBit_shiftRight]

/-- There are no bits above a word. -/
theorem testBit_above (word : UInt32) {place : Nat} (above : 32 ≤ place)
    : word.toNat.testBit place = false :=
  Nat.testBit_lt_two_pow
    (Nat.lt_of_lt_of_le word.toNat_lt (Nat.pow_le_pow_right (by decide) above))

namespace Image

/-- The bit of an image at an address, given as a number. Bits outside the image are clear. -/
def bitAt (image : Image) (bit : Nat) : Bool :=
  if image.origin.toNat ≤ bit then
    (image.words.getD ((bit - image.origin.toNat) / 32) 0).toNat.testBit
      (31 - (bit - image.origin.toNat) % 32)
  else false

theorem SameBits.bitAt {left right : Image} (same : left.SameBits right) (bit : Nat)
    : left.bitAt bit = right.bitAt bit := by
  rw [Image.bitAt, Image.bitAt, same.origin, same.words]

/-- An image ends below the top of the address space, so bits past the top are clear. -/
theorem bitAt_past_top (image : Image) {bit : Nat} (past : 4294967296 ≤ bit)
    : image.bitAt bit = false := by
  have top := image.below_top
  have outside : image.words.getD ((bit - image.origin.toNat) / 32) 0 = 0 := by
    rw [Array.getD_eq_getD_getElem?, Array.getElem?_eq_none (by omega)]
    rfl
  rw [bitAt, if_pos (by omega), outside]
  exact Nat.zero_testBit _

/-- The words of the image are spelled by its bits, the first bit as the most significant one. -/
theorem testBit_wordAt (image : Image) (index : Nat) {place : Nat} (inside : place < 32)
    : (image.wordAt index).toNat.testBit (31 - place) = image.bitAt (32 * index + place) := by
  have aligned := image.aligned
  simp only [wordAt, bitAt]
  by_cases before : image.origin.toNat / 32 ≤ index
  · have word : (32 * index + place - image.origin.toNat) / 32
        = index - image.origin.toNat / 32 := by omega
    have bit : (32 * index + place - image.origin.toNat) % 32 = place := by omega
    rw [if_pos before, if_pos (by omega), word, bit]
  · rw [if_neg before, if_neg (by omega)]
    exact Nat.zero_testBit _

/-- A window holds the 32 bits from its address on. Witness: those up to the end of a word are
shifted up, and what is missing comes from the top of the next word.
-/
theorem testBit_window (image : Image) (address : BitAddress) {place : Nat} (inside : place < 32)
    : (image.window address).toNat.testBit (31 - place)
      = image.bitAt (address.toNat + place) := by
  have low : (address.index &&& 31).toNat = address.toNat % 32 := by
    rw [UInt32.toNat_and]
    exact Nat.and_two_pow_sub_one_eq_mod _ 5
  simp only [window]
  by_cases whole : address.index &&& 31 = 0
  · have aligned : address.toNat % 32 = 0 := by rw [← low, whole]; rfl
    rw [if_pos whole, testBit_wordAt _ _ inside]
    congr 1
    omega
  · have shifted : address.toNat % 32 ≠ 0 := by
      intro aligned
      exact whole (UInt32.toNat.inj (low.trans aligned))
    have shift : (address.index &&& 31).toNat < 32 := by omega
    have missing : (32 - (address.index &&& 31)).toNat = 32 - address.toNat % 32 := by
      rw [UInt32.toNat_sub_of_le _ _ (UInt32.le_iff_toNat_le.mpr (Nat.le_of_lt shift)), low]
      rfl
    rw [if_neg whole, UInt32.toNat_or, Nat.testBit_or, testBit_shiftLeft _ shift (by omega),
      testBit_shiftRight _ (by omega), missing, low]
    by_cases first : address.toNat % 32 + place < 32
    · have upper : 31 - place - address.toNat % 32 = 31 - (address.toNat % 32 + place) := by omega
      have same : 32 * (address.toNat / 32) + (address.toNat % 32 + place)
          = address.toNat + place := by omega
      rw [decide_eq_true (by omega), Bool.true_and, upper, testBit_wordAt _ _ first, same,
        testBit_above _ (by omega), Bool.or_false]
    · have lower : 32 - address.toNat % 32 + (31 - place)
          = 31 - (address.toNat % 32 + place - 32) := by omega
      have same : 32 * (address.toNat / 32 + 1) + (address.toNat % 32 + place - 32)
          = address.toNat + place := by omega
      rw [decide_eq_false (by omega), Bool.false_and, Bool.false_or, lower,
        testBit_wordAt _ _ (by omega), same]

theorem toNat_min (width : UInt32) : (min width 32).toNat = min width.toNat 32 := by
  rw [Std.min_eq_if, Nat.min_def]
  split <;> rename_i less <;> rw [UInt32.le_iff_toNat_le] at less
  · exact (if_pos less).symm
  · exact (if_neg less).symm

/-- How many bits of a window are not part of a read. -/
theorem toNat_unread (width : UInt32)
    : (32 - min width 32).toNat = 32 - min width.toNat 32 := by
  have least := toNat_min width
  have small : min width 32 ≤ 32 := UInt32.le_iff_toNat_le.mpr (least ▸ Nat.min_le_right _ _)
  rw [UInt32.toNat_sub_of_le _ _ small, least]
  rfl

/-- Nothing is read of width zero. -/
theorem min_ne_zero {width : UInt32} (wide : min width 32 ≠ 0) : 0 < min width.toNat 32 := by
  refine Nat.pos_of_ne_zero fun empty => wide (UInt32.toNat.inj ?_)
  rw [toNat_min, empty]
  rfl

/-- The bits of a read are those from its address on, the first one at the top. -/
theorem testBit_readForward (image : Image) (address : BitAddress) (width : UInt32) (place : Nat)
    : (image.readForward address width).toNat.testBit place
      = (decide (place < min width.toNat 32)
          && image.bitAt (address.toNat + (min width.toNat 32 - 1 - place))) := by
  have unread := toNat_unread width
  simp only [readForward]
  by_cases unasked : min width 32 = 0
  · have empty : min width.toNat 32 = 0 := by rw [← toNat_min, unasked]; rfl
    rw [if_pos unasked, empty, decide_eq_false (Nat.not_lt_zero place), Bool.false_and]
    exact Nat.zero_testBit place
  · have wide := min_ne_zero unasked
    rw [if_neg unasked, testBit_shiftRight _ (by omega), unread]
    by_cases inside : place < min width.toNat 32
    · have mirrored : 32 - min width.toNat 32 + place
          = 31 - (min width.toNat 32 - 1 - place) := by omega
      rw [decide_eq_true inside, Bool.true_and, mirrored, testBit_window _ _ (by omega)]
    · rw [decide_eq_false inside, Bool.false_and, testBit_above _ (by omega)]

/-- The bits from an address on spell a number, the first bit as the most significant one. -/
theorem toNat_readForward (image : Image) (address : BitAddress) (width : UInt32)
    : (image.readForward address width).toNat
      = ∑ i ∈ range (min width.toNat 32),
          (image.bitAt (address.toNat + i)).toNat * 2 ^ (min width.toNat 32 - 1 - i) := by
  have small (place : Nat) (above : min width.toNat 32 ≤ place)
      : (image.readForward address width).toNat.testBit place = false := by
    rw [testBit_readForward, decide_eq_false (Nat.not_lt.mpr above), Bool.false_and]
  rw [eq_sum_testBit _ _ small, ← Finset.sum_range_reflect]
  refine Finset.sum_congr rfl fun i member => ?_
  have inside := Finset.mem_range.mp member
  have place : min width.toNat 32 - 1 - (min width.toNat 32 - 1 - i) = i := by omega
  rw [testBit_readForward, place, decide_eq_true (by omega), Bool.true_and]

theorem testBit_reverseBits (word : UInt32) {place : Nat} (inside : place < 32)
    : (reverseBits word).toNat.testBit place = word.toNat.testBit (31 - place) := by
  change word.toBitVec.reverse.getLsbD place = word.toBitVec.getLsbD (31 - place)
  rw [BitVec.getLsbD_reverse, BitVec.getMsbD, decide_eq_true inside, Bool.true_and]

/-- The bits from an address on spell a number, the first bit as the least significant one.
Witness: what is not part of the read is masked out before the bits are turned round.
-/
theorem toNat_readReversed (image : Image) (address : BitAddress) (width : UInt32)
    : (image.readReversed address width).toNat
      = ∑ i ∈ range (min width.toNat 32),
          (image.bitAt (address.toNat + i)).toNat * 2 ^ i := by
  have unread := toNat_unread width
  simp only [readReversed]
  by_cases unasked : min width 32 = 0
  · have empty : min width.toNat 32 = 0 := by rw [← toNat_min, unasked]; rfl
    rw [if_pos unasked, empty]
    rfl
  · have wide := min_ne_zero unasked
    have kept {place : Nat} (inside : place < 32)
        : ((0xFFFFFFFF : UInt32) <<< (32 - min width 32)).toNat.testBit place
          = decide (32 - min width.toNat 32 ≤ place) := by
      have ones : (0xFFFFFFFF : UInt32).toNat = 2 ^ 32 - 1 := rfl
      have lower : place - (32 - min width.toNat 32) < 32 := by omega
      rw [testBit_shiftLeft _ (by omega) inside, unread, ones, Nat.testBit_two_pow_sub_one,
        decide_eq_true lower, Bool.and_true]
    have spelled {place : Nat} (inside : place < 32)
        : (reverseBits (image.window address
            &&& ((0xFFFFFFFF : UInt32) <<< (32 - min width 32)))).toNat.testBit place
          = (image.bitAt (address.toNat + place) && decide (place < min width.toNat 32)) := by
      rw [testBit_reverseBits _ inside, UInt32.toNat_and, Nat.testBit_and,
        testBit_window _ _ inside, kept (by omega)]
      congr 2
      exact propext ⟨fun _ => by omega, fun _ => by omega⟩
    have small (place : Nat) (above : min width.toNat 32 ≤ place)
        : (reverseBits (image.window address
            &&& ((0xFFFFFFFF : UInt32) <<< (32 - min width 32)))).toNat.testBit place = false := by
      by_cases inside : place < 32
      · rw [spelled inside, decide_eq_false (by omega), Bool.and_false]
      · exact testBit_above _ (by omega)
    rw [if_neg unasked, eq_sum_testBit _ _ small]
    refine Finset.sum_congr rfl fun i member => ?_
    have inside := Finset.mem_range.mp member
    rw [spelled (by omega), decide_eq_true inside, Bool.and_true]

end Image

end SpeechRom
