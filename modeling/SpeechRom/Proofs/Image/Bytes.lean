import SpeechRom.Proofs.Image.Bits

/-! An image as plain bytes. Loading overwrites the first bytes and fills up the word in which they
end, tags leave the bytes alone, and reads spell the bits of the bytes.
-/

namespace SpeechRom

open Finset (range)

-----------------------------------------------------------------------------------------
-- Requests
-----------------------------------------------------------------------------------------

/-- What can be done to an image once it is made. -/
inductive ImageRequest where
  | load (bytes : Bytes)
  | addTags (address : BitAddress) (length : UInt32) (tags : TagSet)
  | removeTags (address : BitAddress) (length : UInt32) (tags : TagSet)
  | copy

namespace Image

/-- The image after a request. A copy is an image of the same value. -/
def accept (image : Image) : ImageRequest → Image
  | .load bytes => image.load bytes
  | .addTags address length tags => image.addTags address length tags
  | .removeTags address length tags => image.removeTags address length tags
  | .copy => image

/-- The image after requests in turn. -/
def run (image : Image) (requests : List ImageRequest) : Image := requests.foldl accept image

end Image

-----------------------------------------------------------------------------------------
-- Bytes
-----------------------------------------------------------------------------------------

namespace StoredBytes

/-- The bytes of a blank image: whole words of four bytes for the given number of bits. -/
def blank (sizeBits : UInt32) : List UInt8 :=
  List.replicate (4 * ((sizeBits.toNat + 31) / 32)) 0

/-- The stored bytes after loading. As many bytes as fit are put first, zeros follow up to the next
multiple of four, and what lies after that stays.
-/
def fill (stored : List UInt8) (bytes : Bytes) : List UInt8 :=
  let taken := min bytes.size stored.length
  let filled := (taken + 3) / 4 * 4
  bytes.toList.take taken ++ List.replicate (filled - taken) 0 ++ stored.drop filled

/-- The stored bytes after a request. -/
def accept (stored : List UInt8) : ImageRequest → List UInt8
  | .load bytes => fill stored bytes
  | .addTags .. | .removeTags .. | .copy => stored

/-- The stored bytes after requests in turn. -/
def run (stored : List UInt8) (requests : List ImageRequest) : List UInt8 :=
  requests.foldl accept stored

/-- A bit of stored bytes, counted from the most significant bit of the first one. -/
def bit (stored : List UInt8) (index : Nat) : Nat :=
  (stored.getD (index / 8) 0).toNat / 2 ^ (7 - index % 8) % 2

theorem length_fill {stored : List UInt8} (whole : stored.length % 4 = 0) (bytes : Bytes)
    : (fill stored bytes).length = stored.length := by
  simp only [fill, List.length_append, List.length_take, List.length_replicate,
    List.length_drop, Array.length_toList]
  omega

theorem length_run {stored : List UInt8} (whole : stored.length % 4 = 0)
    (requests : List ImageRequest)
    : (run stored requests).length = stored.length := by
  unfold run
  induction requests generalizing stored with
  | nil => rfl
  | cons request rest ih =>
      have kept : (accept stored request).length = stored.length := by
        cases request with
        | load bytes => exact length_fill whole bytes
        | addTags | removeTags | copy => rfl
      exact (ih (kept ▸ whole)).trans kept

/-- A byte after loading is a new one, a zero behind the new ones, or an old one. -/
theorem byteAt_fill (stored : List UInt8) (bytes : Bytes) (index : Nat)
    : Image.byteAt (fill stored bytes).toArray index
      = if index < min bytes.size stored.length then Image.byteAt bytes index
        else if index < (min bytes.size stored.length + 3) / 4 * 4 then 0
        else Image.byteAt stored.toArray index := by
  simp only [Image.byteAt, fill, List.getElem?_toArray]
  by_cases new : index < min bytes.size stored.length
  · rw [if_pos new, List.append_assoc, List.getElem?_append_left (by simp; omega),
      List.getElem?_take_of_lt new, Array.getElem?_toList]
  · rw [if_neg new]
    by_cases zero : index < (min bytes.size stored.length + 3) / 4 * 4
    · rw [if_pos zero, List.getElem?_append_left (by simp; omega),
        List.getElem?_append_right (by simp; omega), List.getElem?_replicate_of_lt (by simp; omega)]
      rfl
    · rw [if_neg zero, List.getElem?_append_right (by simp; omega), List.getElem?_drop]
      congr 3
      simp
      omega

end StoredBytes

namespace Image

theorem toNat_byteAt (bytes : Bytes) (index : Nat)
    : (byteAt bytes index).toNat = (bytes.toList.getD index 0).toNat := by
  rw [byteAt, List.getD_eq_getElem?_getD, Array.getElem?_toList]
  cases bytes[index]? <;> rfl

/-- A byte moved up by whole bytes covers eight bits of a word. -/
theorem testBit_movedByte {byte shift : UInt32} (small : byte.toNat < 256) {number place : Nat}
    (moved : shift.toNat = 24 - 8 * number) (last : number < 4) (inside : place < 32)
    : (byte <<< shift).toNat.testBit (31 - place)
      = (decide (place / 8 = number) && byte.toNat.testBit (7 - place % 8)) := by
  rw [testBit_shiftLeft _ (by omega) (by omega), moved]
  by_cases here : place / 8 = number
  · have lower : 31 - place - (24 - 8 * number) = 7 - place % 8 := by omega
    rw [decide_eq_true here, decide_eq_true (by omega), lower]
  · rw [decide_eq_false here, Bool.false_and]
    by_cases above : 24 - 8 * number ≤ 31 - place
    · have high : 2 ^ 8 ≤ 2 ^ (31 - place - (24 - 8 * number)) :=
        Nat.pow_le_pow_right (by decide) (by omega)
      rw [Nat.testBit_lt_two_pow (by omega), Bool.and_false]
    · rw [decide_eq_false above, Bool.false_and]

/-- A packed word has the bits of its four bytes in their order. -/
theorem testBit_packWord (bytes : Bytes) (index : Nat) {place : Nat} (inside : place < 32)
    : (packWord bytes index).toNat.testBit (31 - place)
      = (byteAt bytes (4 * index + place / 8)).toNat.testBit (7 - place % 8) := by
  have last : byteAt bytes (4 * index + 3) = byteAt bytes (4 * index + 3) <<< 0 := by simp
  have small (place : Nat) : (byteAt bytes place).toNat < 256 :=
    toNat_byteAt bytes place ▸ UInt8.toNat_lt _
  rw [packWord, last, UInt32.toNat_or, UInt32.toNat_or, UInt32.toNat_or, Nat.testBit_or,
    Nat.testBit_or, Nat.testBit_or,
    testBit_movedByte (small _) (show (24 : UInt32).toNat = 24 - 8 * 0 from rfl) (by omega) inside,
    testBit_movedByte (small _) (show (16 : UInt32).toNat = 24 - 8 * 1 from rfl) (by omega) inside,
    testBit_movedByte (small _) (show (8 : UInt32).toNat = 24 - 8 * 2 from rfl) (by omega) inside,
    testBit_movedByte (small _) (show (0 : UInt32).toNat = 24 - 8 * 3 from rfl) (by omega) inside]
  -- The place lies in one of the four bytes, and the other three leave it clear.
  obtain number | number | number | number
      : place / 8 = 0 ∨ place / 8 = 1 ∨ place / 8 = 2 ∨ place / 8 = 3 := by omega
  all_goals simp [number]

-----------------------------------------------------------------------------------------
-- Words of the stored bytes
-----------------------------------------------------------------------------------------

/-- The words of an image are its stored bytes, four at a time. -/
structure Stores (image : Image) (stored : List UInt8) : Prop where
  length : stored.length = 4 * image.words.size
  words : ∀ index, index < image.words.size
    → image.words[index]? = some (packWord stored.toArray index)

/-- Words are packed alike from files with the same four bytes. -/
theorem packWord_congr {left right : Bytes} {index : Nat}
    (same : ∀ place < 4, byteAt left (4 * index + place) = byteAt right (4 * index + place))
    : packWord left index = packWord right index := by
  have first : byteAt left (4 * index) = byteAt right (4 * index) := same 0 (by decide)
  rw [packWord, packWord, first, same 1 (by decide), same 2 (by decide), same 3 (by decide)]

theorem byteAt_eq_zero {bytes : Bytes} {index : Nat} (past : bytes.size ≤ index)
    : byteAt bytes index = 0 := by
  rw [byteAt, Array.getElem?_eq_none past]

theorem byteAt_append_left {front rest : Bytes} {index : Nat} (inside : index < front.size)
    : byteAt (front ++ rest) index = byteAt front index := by
  rw [byteAt, byteAt, Array.getElem?_append_left inside]

/-- Loading into a blank image leaves zeros in the words that receive no byte. -/
theorem getD_words_load {origin : BitAddress} {sizeBits : UInt32} {blank : Image} {bytes : Bytes}
    (created : create origin sizeBits = .ok blank) (fits : 8 * bytes.size ≤ sizeBits.toNat)
    (index : Nat)
    : (blank.load bytes).words.getD index 0
      = if 4 * index < bytes.size then packWord bytes index else 0 := by
  obtain ⟨-, size, words, -⟩ := create_ok created
  have enough := blank.words_size
  rw [size] at enough
  have count : blank.taken bytes = bytes.size := by
    rw [taken, capacity]
    omega
  rw [Array.getD_eq_getD_getElem?, load]
  simp only [Array.getElem?_mapIdx, count]
  by_cases inside : index < blank.words.size
  · have zero : blank.words[index]? = some 0 := by
      have replicated : blank.words.size = wordCount sizeBits := by
        rw [words, Array.size_replicate]
      rw [words, Array.getElem?_replicate, if_pos (replicated ▸ inside)]
    rw [zero]
    rfl
  · rw [Array.getElem?_eq_none (Nat.not_lt.mp inside), if_neg (by omega)]
    rfl

/-- A blank image that a file is loaded into has the bits of the file, and zeros after them. -/
theorem bitAt_load {origin : BitAddress} {sizeBits : UInt32} {blank : Image} {bytes : Bytes}
    (created : create origin sizeBits = .ok blank) (fits : 8 * bytes.size ≤ sizeBits.toNat)
    (index : Nat)
    : (blank.load bytes).bitAt (origin.toNat + index)
      = (byteAt bytes (index / 8)).toNat.testBit (7 - index % 8) := by
  have byte : 4 * (index / 32) + index % 32 / 8 = index / 8 := by omega
  have place : index % 32 % 8 = index % 8 := by omega
  have start : (blank.load bytes).origin = origin := (create_ok created).1
  rw [bitAt, start, if_pos (Nat.le_add_right ..), Nat.add_sub_cancel_left,
    getD_words_load created fits]
  by_cases reached : 4 * (index / 32) < bytes.size
  · rw [if_pos reached, testBit_packWord _ _ (by omega), byte, place]
  · rw [if_neg reached, byteAt_eq_zero (by omega)]
    exact (Nat.zero_testBit _).trans (Nat.zero_testBit _).symm

theorem Stores.blank {origin : BitAddress} {sizeBits : UInt32} {image : Image}
    (created : Image.create origin sizeBits = .ok image)
    : image.Stores (StoredBytes.blank sizeBits) ∧ image.origin = origin := by
  have zero (index : Nat) : byteAt (StoredBytes.blank sizeBits).toArray index = 0 := by
    rw [byteAt, StoredBytes.blank, List.getElem?_toArray, List.getElem?_replicate]
    by_cases inside : index < 4 * ((sizeBits.toNat + 31) / 32)
    · rw [if_pos inside]
      rfl
    · rw [if_neg inside]
  obtain ⟨start, -, words, -⟩ := create_ok created
  have size : image.words.size = wordCount sizeBits := by rw [words, Array.size_replicate]
  refine ⟨⟨?_, fun index inside => ?_⟩, start⟩
  · rw [StoredBytes.blank, List.length_replicate, size, wordCount]
  · have empty : packWord (StoredBytes.blank sizeBits).toArray index = 0 := by
      rw [packWord, zero, zero, zero, zero]
      rfl
    rw [empty, words, Array.getElem?_replicate, if_pos (size ▸ inside)]

/-- Loading fills the stored bytes. Witness: a word that receives a byte is packed from the new
bytes and zeros, and all bytes of a later word are old ones.
-/
theorem Stores.load {image : Image} {stored : List UInt8} (stores : image.Stores stored)
    (bytes : Bytes)
    : (image.load bytes).Stores (StoredBytes.fill stored bytes) := by
  have length := stores.length
  have taken : image.taken bytes = min bytes.size stored.length := by
    rw [Image.taken, capacity, length]
  have size : (image.load bytes).words.size = image.words.size := by simp [Image.load]
  refine ⟨?_, ?_⟩
  · rw [StoredBytes.length_fill (by omega), length, size]
  · intro index inside
    rw [size] at inside
    have word : (image.load bytes).words[index]?
        = some (if 4 * index < image.taken bytes then packWord bytes index
            else packWord stored.toArray index) := by
      simp only [Image.load, Array.getElem?_mapIdx, stores.words index inside, Option.map_some]
    rw [word]
    congr 1
    by_cases reached : 4 * index < image.taken bytes
    · rw [if_pos reached]
      refine packWord_congr fun place below => ?_
      rw [StoredBytes.byteAt_fill]
      by_cases new : 4 * index + place < min bytes.size stored.length
      · rw [if_pos new]
      · have past : bytes[4 * index + place]? = none := Array.getElem?_eq_none (by omega)
        rw [if_neg new, if_pos (by omega), byteAt, past]
    · rw [if_neg reached]
      refine packWord_congr fun place below => ?_
      rw [StoredBytes.byteAt_fill, if_neg (by omega), if_neg (by omega)]

theorem Stores.accept {image : Image} {stored : List UInt8} (stores : image.Stores stored)
    (request : ImageRequest)
    : (image.accept request).Stores (StoredBytes.accept stored request)
      ∧ (image.accept request).origin = image.origin := by
  cases request with
  | load bytes => exact ⟨stores.load bytes, rfl⟩
  | addTags | removeTags => exact ⟨⟨stores.length, stores.words⟩, rfl⟩
  | copy => exact ⟨stores, rfl⟩

/-- Whatever is done to an image, its words are the stored bytes, by induction on the requests. -/
theorem Stores.run {image : Image} {stored : List UInt8} (stores : image.Stores stored)
    (requests : List ImageRequest)
    : (image.run requests).Stores (StoredBytes.run stored requests)
      ∧ (image.run requests).origin = image.origin := by
  unfold Image.run StoredBytes.run
  induction requests generalizing image stored with
  | nil => exact ⟨stores, rfl⟩
  | cons request rest ih =>
      obtain ⟨first, kept⟩ := stores.accept request
      obtain ⟨last, origin⟩ := ih first
      exact ⟨last, origin.trans kept⟩

/-- A bit of an image is a bit of its stored bytes, zero before and after them. -/
theorem Stores.bitAt {image : Image} {stored : List UInt8} (stores : image.Stores stored)
    (address : Nat)
    : (image.bitAt address).toNat
      = if image.origin.toNat ≤ address ∧ address < image.finish.toNat then
          StoredBytes.bit stored (address - image.origin.toNat)
        else 0 := by
  rw [toNat_finish, Image.bitAt]
  by_cases before : image.origin.toNat ≤ address
  · rw [if_pos before]
    by_cases inside : address < image.origin.toNat + 32 * image.words.size
    · rw [if_pos ⟨before, inside⟩]
      have offset : address - image.origin.toNat < 32 * image.words.size := by omega
      generalize address - image.origin.toNat = index at offset ⊢
      have word := stores.words (index / 32) (by omega)
      have byte : 4 * (index / 32) + index % 32 / 8 = index / 8 := by omega
      have place : index % 32 % 8 = index % 8 := by omega
      rw [Array.getD_eq_getD_getElem?, word, Option.getD_some, testBit_packWord _ _ (by omega),
        byte, place, Nat.toNat_testBit, toNat_byteAt]
      rfl
    · have past : image.words[(address - image.origin.toNat) / 32]? = none :=
        Array.getElem?_eq_none (by omega)
      rw [if_neg (by omega), Array.getD_eq_getD_getElem?, past]
      exact congrArg Bool.toNat (Nat.zero_testBit _)
  · rw [if_neg before, if_neg (by omega)]
    rfl

-----------------------------------------------------------------------------------------
-- Indices
-----------------------------------------------------------------------------------------

/-- The words of an image with one zero before and two behind them, for windows that stick out. -/
def guarded (image : Image) : Array UInt32 := #[0] ++ image.words ++ #[0, 0]

/-- The place among the guarded words of the first word of a window. There is none where that word
neither lies in the image nor comes just before it.
-/
def guardedIndex? (image : Image) (address : BitAddress) : Option Nat :=
  let next := address.toNat / 32 + 1
  let base := image.origin.toNat / 32
  if base ≤ next ∧ next ≤ base + image.words.size then some (next - base) else none

/-- All indices that loads, tags and windows use lie inside what they index. A window is put
together from two guarded words, which are both there, or from none.
-/
structure IndicesInside (image : Image) : Prop where
  load : ∀ bytes,
    image.taken bytes ≤ bytes.size
    ∧ ∀ index, 4 * index < image.taken bytes → index < image.words.size
  tags : ∀ address length,
    image.rangeCount address length ≠ 0
      → image.rangeStart address + image.rangeCount address length ≤ image.tags.size
  away : ∀ address, image.guardedIndex? address = none → image.window address = 0
  window : ∀ address index, image.guardedIndex? address = some index
    → ∃ first second,
        image.guarded[index]? = some first
        ∧ image.guarded[index + 1]? = some second
        ∧ image.window address
          = let shift := address.index &&& 31
            if shift = 0 then first else (first <<< shift) ||| (second >>> (32 - shift))

/-- Around the image the guarded words are the zeros that a read of a word gives there. -/
theorem getElem?_guarded (image : Image) {word : Nat} (before : image.origin.toNat / 32 ≤ word + 1)
    (behind : word < image.origin.toNat / 32 + image.words.size + 2)
    : image.guarded[word + 1 - image.origin.toNat / 32]? = some (image.wordAt word) := by
  simp only [guarded, wordAt, Array.append_assoc]
  by_cases front : image.origin.toNat / 32 ≤ word
  · have place : word + 1 - image.origin.toNat / 32 - #[(0 : UInt32)].size
        = word - image.origin.toNat / 32 := by
      rw [Array.size_singleton]
      omega
    rw [if_pos front, Array.getElem?_append_right (by simp; omega), place,
      Array.getD_eq_getD_getElem?]
    by_cases inside : word - image.origin.toNat / 32 < image.words.size
    · rw [Array.getElem?_append_left inside, Array.getElem?_eq_getElem inside, Option.getD_some]
    · have zeros : (#[0, 0] : Array UInt32) = Array.replicate 2 0 := rfl
      rw [Array.getElem?_append_right (by omega), zeros, Array.getElem?_replicate,
        if_pos (by omega), Array.getElem?_eq_none (by omega), Option.getD_none]
  · have first : word + 1 - image.origin.toNat / 32 = 0 := by omega
    rw [if_neg front, first, Array.getElem?_append_left (by simp)]
    rfl

/-- Where a window finds no word of the image, both of its words are zero. -/
theorem window_eq_zero {image : Image} {address : BitAddress}
    (away : image.guardedIndex? address = none)
    : image.window address = 0 := by
  have apart : address.toNat / 32 + 1 < image.origin.toNat / 32
      ∨ image.origin.toNat / 32 + image.words.size ≤ address.toNat / 32 := by
    simp only [guardedIndex?] at away
    split at away
    · cases away
    · omega
  have clear (word : Nat) (least : address.toNat / 32 ≤ word) (most : word ≤ address.toNat / 32 + 1)
      : image.wordAt word = 0 := by
    simp only [wordAt]
    split
    · rw [Array.getD_eq_getD_getElem?, Array.getElem?_eq_none (by omega), Option.getD_none]
    · rfl
  simp only [window]
  rw [clear _ (by omega) (by omega), clear _ (by omega) (by omega), UInt32.zero_shiftLeft,
    UInt32.zero_shiftRight, UInt32.or_self, ite_self]

/-- Where a window meets the image, both of its words are guarded words. -/
theorem getElem?_guardedIndex {image : Image} {address : BitAddress} {index : Nat}
    (here : image.guardedIndex? address = some index)
    : image.guarded[index]? = some (image.wordAt (address.toNat / 32))
      ∧ image.guarded[index + 1]? = some (image.wordAt (address.toNat / 32 + 1)) := by
  simp only [guardedIndex?] at here
  split at here
  · rename_i near
    have place := Option.some.inj here
    have next : address.toNat / 32 + 1 + 1 - image.origin.toNat / 32 = index + 1 := by omega
    have first := image.getElem?_guarded near.1 (by omega)
    have second := image.getElem?_guarded
      (show image.origin.toNat / 32 ≤ address.toNat / 32 + 1 + 1 by omega) (by omega)
    exact ⟨place ▸ first, next ▸ second⟩
  · cases here

theorem indicesInside (image : Image) : image.IndicesInside where
  load bytes := by
    simp only [taken, capacity]
    exact ⟨Nat.min_le_left _ _, fun index below => by omega⟩
  tags address length := by
    simp only [rangeCount, rangeStart, rangeStop]
    omega
  away address := window_eq_zero
  window address index here := by
    obtain ⟨first, second⟩ := getElem?_guardedIndex here
    exact ⟨_, _, first, second, rfl⟩

/-- Whatever is done to a new image, it reads as plain bytes do: blank at first, overwritten by
loads, and untouched by tags. No index is ever out of range.
-/
theorem run_reads_storedBytes {origin : BitAddress} {sizeBits : UInt32} {image : Image}
    (created : Image.create origin sizeBits = .ok image) (requests : List ImageRequest)
    : let current := image.run requests
      let stored := StoredBytes.run (StoredBytes.blank sizeBits) requests
      let bit (address : Nat) :=
        if current.origin.toNat ≤ address ∧ address < current.finish.toNat then
          StoredBytes.bit stored (address - current.origin.toNat)
        else 0
      stored.length = 4 * ((sizeBits.toNat + 31) / 32)
      ∧ current.origin = origin
      ∧ current.finish.toNat = origin.toNat + 8 * stored.length
      ∧ (∀ bytes, current.taken bytes = min bytes.size stored.length)
      ∧ (∀ address width,
          let count := min width.toNat 32
          (current.readForward address width).toNat
            = ∑ i ∈ range count, bit (address.toNat + i) * 2 ^ (count - 1 - i)
          ∧ (current.readReversed address width).toNat
            = ∑ i ∈ range count, bit (address.toNat + i) * 2 ^ i)
      ∧ current.IndicesInside := by
  obtain ⟨blank, start⟩ := Stores.blank created
  obtain ⟨stores, kept⟩ := blank.run requests
  intro current stored bit
  have whole : (StoredBytes.blank sizeBits).length = 4 * ((sizeBits.toNat + 31) / 32) :=
    List.length_replicate
  have length : stored.length = 4 * ((sizeBits.toNat + 31) / 32) :=
    (StoredBytes.length_run (by omega) requests).trans whole
  refine ⟨length, kept.trans start, ?_, ?_, ?_, current.indicesInside⟩
  · rw [toNat_finish, stores.length, kept, start, ← Nat.mul_assoc]
  · intro bytes
    rw [taken, capacity, stores.length]
  · intro address width count
    rw [toNat_readForward, toNat_readReversed]
    exact ⟨Finset.sum_congr rfl fun i _ => by rw [stores.bitAt],
      Finset.sum_congr rfl fun i _ => by rw [stores.bitAt]⟩

/-- Two bytes over six older ones, in an image of two words at bit 64, with a read across its
origin and one across its end.
-/
theorem run_reads_storedBytes_overwritten
    : let requests : List ImageRequest :=
        [.load #[1, 2, 3, 4, 5, 6], .addTags ⟨70⟩ 9 TagSet.code, .load #[0xFF, 0x80], .copy]
      ∃ image,
        Image.create ⟨64⟩ 48 = .ok image
        ∧ StoredBytes.run (StoredBytes.blank 48) requests = [0xFF, 0x80, 0, 0, 5, 6, 0, 0]
        ∧ ((image.run requests).readForward ⟨60⟩ 12).toNat = 0x0FF
        ∧ ((image.run requests).readReversed ⟨104⟩ 40).toNat = 0x60
        ∧ (image.run requests).IndicesInside := by
  intro requests
  have created : Image.create ⟨64⟩ 48 = .ok _ := rfl
  obtain ⟨-, -, -, -, reads, inside⟩ := run_reads_storedBytes created requests
  exact ⟨_, created, by decide, (reads ⟨60⟩ 12).1.trans (by decide +kernel),
    (reads ⟨104⟩ 40).2.trans (by decide +kernel), inside⟩

end Image

end SpeechRom
