import SpeechRom.Proofs.Decode.Replay

/-! Every bit of an instruction is tagged. The first byte of an instruction is tagged on its own,
and behind it there are only operand fields, which follow one another without a gap.
-/

namespace SpeechRom

-----------------------------------------------------------------------------------------
-- Fields
-----------------------------------------------------------------------------------------

namespace Format

/-- Every bit of a format lies in one of its fields, by induction on them. -/
theorem exists_placed (format : Format) {start : BitAddress} {bit : Nat}
    (above : start.toNat ≤ bit)
    (below : bit < start.toNat + (placedLength (format.place start)).toNat)
    (room : start.toNat + (placedLength (format.place start)).toNat ≤ 4294967296)
    : ∃ placed ∈ format.place start,
        placed.start.toNat ≤ bit ∧ bit < placed.start.toNat + placed.width.toNat := by
  induction format generalizing start with
  | nil => exact absurd below (Nat.not_lt.mpr above)
  | cons field rest ih =>
      simp only [place, placedLength_cons, UInt32.toNat_add] at below room ⊢
      by_cases first : bit < start.toNat + (field.widthAt start).toNat
      · exact ⟨_, List.mem_cons_self, above, first⟩
      · -- The sum of the widths has not wrapped, or it would end before this field does.
        have small := (placedLength (place (start + field.widthAt start) rest)).toNat_lt
        have next : (start + field.widthAt start).toNat
            = start.toNat + (field.widthAt start).toNat := BitAddress.toNat_add_of_lt (by omega)
        have behind : (start + field.widthAt start).toNat ≤ bit := by omega
        obtain ⟨placed, member, covers⟩ := ih behind (by omega) (by omega)
        exact ⟨placed, List.mem_cons_of_mem _ member, covers⟩

/-- Opcode fields end within so many bits, when the format comes after at most `offset` of them. -/
def namesWithin (limit : Nat) : Nat → Format → Bool
  | _, [] => true
  | offset, field :: rest =>
    (!field.isMnemonic || offset + field.mostBits ≤ limit)
      && namesWithin limit (offset + field.mostBits) rest

theorem finish_le_of_isMnemonic {format : Format} {start : BitAddress} {base offset limit : Nat}
    (near : start.toNat ≤ base + offset) (within : format.namesWithin limit offset)
    {placed : PlacedField} (member : placed ∈ format.place start)
    (names : placed.field.isMnemonic)
    : placed.start.toNat + placed.width.toNat ≤ base + limit := by
  induction format generalizing start offset with
  | nil => cases member
  | cons field rest ih =>
      have most := (field.widthAt_bounds start).2
      rw [namesWithin, Bool.and_eq_true, Bool.or_eq_true, Bool.not_eq_true', decide_eq_true_eq]
        at within
      rcases List.mem_cons.mp member with rfl | later
      · rcases within.1 with other | ends
        · cases other.symm.trans names
        · dsimp only
          omega
      · have next := BitAddress.toNat_add start (field.widthAt start)
        exact ih (by omega) within.2 later

end Format

/-- Every format of the processor has its opcode in its first byte. -/
theorem Sp0256.table_namesWithin (opcode : Fin 16) (mode : Fin 4)
    : (table.format opcode mode).namesWithin 8 0 := by
  revert opcode mode
  decide

-----------------------------------------------------------------------------------------
-- Taggings
-----------------------------------------------------------------------------------------

/-- A tagging puts its tags on a bit, if the bit is in the image. -/
def Tagging.Covers (tagging : Tagging) (bit : Nat) : Prop :=
  tagging.start.toNat ≤ bit ∧ bit < tagging.start.toNat + tagging.length.toNat

instance (tagging : Tagging) (bit : Nat) : Decidable (tagging.Covers bit) :=
  inferInstanceAs (Decidable (_ ∧ _))

namespace Reading

/-- Every bit of a reading is covered: the second half of the first byte as code, all else as
operands. Witness: the first byte has its own taggings, and a bit behind it lies in a field that is
not the opcode.
-/
theorem ofImage_covers {image : Image} {mode : Mode} {address : BitAddress} {bit : Nat}
    (above : address.toNat ≤ bit)
    (below : bit < address.toNat + (ofImage Sp0256.table image mode address).length.toNat)
    (room : address.toNat + (ofImage Sp0256.table image mode address).length.toNat ≤ 4294967296)
    : ∃ tagging ∈ (ofImage Sp0256.table image mode address).taggings,
        tagging.Covers bit
        ∧ tagging.tags
          = if address.toNat + 4 ≤ bit ∧ bit < address.toNat + 8 then TagSet.code
            else TagSet.operand := by
  obtain ⟨sites, taggings, -⟩ := ofImage_sites Sp0256.table image mode address
  rw [taggings]
  have least := (ofImage_sp0256_length image mode address).1
  have four : (address + (4 : UInt32)).toNat = address.toNat + 4 :=
    BitAddress.toNat_add_of_lt (show address.toNat + 4 < 4294967296 by omega)
  have nibble : (4 : UInt32).toNat = 4 := rfl
  by_cases value : bit < address.toNat + 4
  · refine ⟨_, List.mem_append_left _ List.mem_cons_self, ⟨above, ?_⟩, ?_⟩
    · dsimp only
      omega
    · rw [if_neg (by omega)]
  by_cases opcode : bit < address.toNat + 8
  · refine ⟨_, List.mem_append_left _ (List.mem_cons_of_mem _ List.mem_cons_self), ⟨?_, ?_⟩, ?_⟩
    · dsimp only
      omega
    · dsimp only
      omega
    · rw [if_pos (by omega)]
  · rcases ofImage_length Sp0256.table image mode address with ⟨byte, -, -⟩ | length
    · have eight : (8 : UInt32).toNat = 8 := rfl
      rw [byte] at below
      omega
    · rw [length] at below room
      obtain ⟨placed, member, covers⟩ := Format.exists_placed _ above below room
      have other : placed.field.isMnemonic = false := by
        rw [ofImage_format] at member
        have start : address.toNat ≤ address.toNat + 0 := Nat.le_refl _
        by_contra names
        have ends := Format.finish_le_of_isMnemonic start (Sp0256.table_namesWithin _ _) member
          (Bool.eq_true_of_not_eq_false names)
        omega
      have tagged : ⟨placed.start, placed.width, TagSet.operand⟩
          ∈ operandTaggings ((ofImage Sp0256.table image mode address).format.place address) :=
        List.mem_map_of_mem (List.mem_filter.mpr ⟨member, by rw [other]; rfl⟩)
      refine ⟨_, List.mem_append_left _ (List.mem_append_right _ tagged), covers, ?_⟩
      rw [if_neg (by omega)]

end Reading

/-- The tag for a bit of an instruction: the second half of its first byte is the opcode. -/
def Instruction.bitTag (instruction : Instruction) (bit : Nat) : TagSet :=
  if instruction.address.toNat + 4 ≤ bit ∧ bit < instruction.address.toNat + 8 then TagSet.code
  else TagSet.operand

/-- A bit of an instruction carries its tag where the image bears all that was read. -/
theorem Instruction.isTagged_bitTag {image : Image} {instruction : Instruction} {label : String}
    (made : instruction = (instruction.reading image).instruction label)
    (ends : instruction.finish.toNat = instruction.address.toNat + instruction.length.toNat)
    (borne : ∀ tagging ∈ (instruction.reading image).taggings, image.Bears tagging)
    {site : BitAddress} (inside : image.contains site)
    (above : instruction.address.toNat ≤ site.toNat) (below : site.toNat < instruction.finish.toNat)
    : image.isTagged site 1 (instruction.bitTag site.toNat) := by
  have top := instruction.finish.toNat_lt
  have length : instruction.length = (instruction.reading image).length :=
    congrArg Instruction.length made
  rw [length, reading] at ends
  obtain ⟨tagging, member, covers, tags⟩ :=
    Reading.ofImage_covers above (ends ▸ below) (ends ▸ Nat.le_of_lt top)
  have kinds : tagging.tags = TagSet.code ∨ tagging.tags = TagSet.operand := by
    rw [tags]
    exact ite_eq_or_eq _ _ _
  obtain ⟨stored, kept⟩ : TagSet.inside.meets tagging.tags = false
      ∧ (tagging.tags \ TagSet.inside).meets tagging.tags := by
    rcases kinds with code | operand
    · rw [code]
      exact ⟨rfl, rfl⟩
    · rw [operand]
      exact ⟨rfl, rfl⟩
  have held := (image.contains_iff site).mp inside
  have union := borne tagging member site.toNat held covers.1 covers.2
  rw [bitTag, ← tags, image.isTagged_one_iff site stored, ← union, TagSet.meets_union, kept]
  exact ⟨held, Bool.or_true _⟩

-----------------------------------------------------------------------------------------
-- First pass
-----------------------------------------------------------------------------------------

namespace Disassembly

/-- All instructions of a pass are what the bits say at their address in their mode. -/
theorem Passes.readings {image : Image} {finish address stop : BitAddress}
    {state final : DecoderState} {decoded : List Instruction}
    (passes : Passes Sp0256.table finish address state decoded stop final)
    (bits : state.image.SameBits image)
    : ∀ instruction ∈ decoded,
        ∃ label, instruction = (instruction.reading image).instruction label := by
  induction passes with
  | none => exact fun _ member => absurd member List.not_mem_nil
  | next _ outcome _ ih =>
      refine List.forall_mem_cons.mpr ⟨?_, ih ((decode_sameBits ..).trans bits)⟩
      obtain ⟨⟨label, made⟩, -⟩ := decode_ok_reading outcome
      rw [← decode_reading outcome, Instruction.reading, bits.ofImage] at made
      exact ⟨label, made⟩

/-- After a first pass that succeeds, every bit of the image that belongs to an instruction is
tagged: the second half of the instruction's first byte as code, and all else as operands. So there
is no bit without a tag up to the end of the last instruction.
-/
theorem decodeAll_tags_instructions {disassembly : Disassembly} {count : Nat}
    (room : disassembly.image.finish.toNat ≤ 4294967296 - 136)
    (succeeded : disassembly.decodeAll.outcome = .ok count)
    : let image := disassembly.decodeAll.disassembly.image
      let instructions := disassembly.decodeAll.disassembly.instructions.toList
      (∀ instruction ∈ instructions, ∀ site, image.contains site
        → instruction.address ≤ site → site < instruction.finish
        → image.isTagged site 1 (instruction.bitTag site.toNat))
      ∧ ∀ last, instructions.getLast? = some last
        → ∀ site, image.contains site → site < last.finish
          → image.isTagged site 1 TagSet.code ∨ image.isTagged site 1 TagSet.operand := by
  obtain ⟨stop, final, passes, -, sameImage, -, -⟩ := decodeAll_ok succeeded
  have limit := disassembly.toNat_romFinish.2
  have tiles := passes.tiles (by omega)
  have bits := passes.sameBits
  rw [sameImage]
  intro image instructions
  have tagged (instruction : Instruction) (member : instruction ∈ instructions) (site : BitAddress)
      (inside : image.contains site) (above : instruction.address.toNat ≤ site.toNat)
      (below : site.toNat < instruction.finish.toNat)
      : image.isTagged site 1 (instruction.bitTag site.toNat) := by
    obtain ⟨label, made⟩ := passes.readings bits.symm instruction member
    exact Instruction.isTagged_bitTag made (tiles.finish_eq instruction member)
      (passes.bears instruction member) inside above below
  refine ⟨fun instruction member site inside above below =>
    tagged instruction member site inside above (BitAddress.lt_iff.mp below), ?_⟩
  intro last found site inside below
  have start : disassembly.origin.toNat ≤ site.toNat := by
    have held := ((image.contains_iff site).mp inside).1
    rwa [bits.origin] at held
  have ends : last.finish.toNat = stop.toNat := by
    have finish := tiles.last
    rwa [found] at finish
  obtain ⟨instruction, member, above, within⟩ :=
    tiles.exists_mem start (ends ▸ BitAddress.lt_iff.mp below)
  have carries := tagged instruction member site inside above within
  unfold Instruction.bitTag at carries
  split at carries
  · exact .inl carries
  · exact .inr carries

/-- An instruction of 37 bits and a return behind it, which starts at bit 5 of a byte: its opcode is
code, and the padding at its end is an operand.
-/
theorem decodeAll_tags_instructions_unaligned
    : ∃ disassembly count,
        (setup #[0x05, 0x00, 0x00, 0x00, 0x00, 0x00] none { origin := some 0x1000 }).outcome
          = .ok disassembly
        ∧ disassembly.image.finish.toNat ≤ 4294967296 - 136
        ∧ disassembly.decodeAll.outcome = .ok count
        ∧ let image := disassembly.decodeAll.disassembly.image
          let instructions := disassembly.decodeAll.disassembly.instructions.toList
          instructions.map (fun instruction => (instruction.address, instruction.finish))
            = [(⟨0x8000⟩, ⟨0x8025⟩), (⟨0x8025⟩, ⟨0x8030⟩)]
          ∧ image.isTagged ⟨0x8029⟩ 1 TagSet.code
          ∧ image.isTagged ⟨0x802F⟩ 1 TagSet.operand
          ∧ ∀ site, image.contains site → site < ⟨0x8030⟩
            → image.isTagged site 1 TagSet.code ∨ image.isTagged site 1 TagSet.operand := by
  obtain ⟨disassembly, accepted, room, decoded, places, opcode, padding⟩
      : ∃ disassembly,
          (setup #[0x05, 0x00, 0x00, 0x00, 0x00, 0x00] none { origin := some 0x1000 }).outcome
            = .ok disassembly
          ∧ disassembly.image.finish.toNat ≤ 4294967296 - 136
          ∧ disassembly.decodeAll.outcome.toOption = some 2
          ∧ disassembly.decodeAll.disassembly.instructions.toList.map
              (fun instruction => (instruction.address, instruction.finish))
            = [(⟨0x8000⟩, ⟨0x8025⟩), (⟨0x8025⟩, ⟨0x8030⟩)]
          ∧ disassembly.decodeAll.disassembly.image.contains ⟨0x8029⟩
          ∧ disassembly.decodeAll.disassembly.image.contains ⟨0x802F⟩ :=
    ⟨_, rfl, by decide, by decide +kernel, by decide +kernel, by decide +kernel,
      by decide +kernel⟩
  have succeeded := outcome_of_count decoded
  obtain ⟨tagged, covered⟩ := decodeAll_tags_instructions room succeeded
  obtain ⟨first, rest, split, -, more⟩ := List.map_eq_cons_iff.mp places
  obtain ⟨last, tail, restSplit, place, ended⟩ := List.map_eq_cons_iff.mp more
  obtain rfl := List.map_eq_nil_iff.mp ended
  obtain ⟨address, ends⟩ := Prod.mk.inj place
  rw [restSplit] at split
  have member : last ∈ disassembly.decodeAll.disassembly.instructions.toList := by
    rw [split]
    exact List.mem_cons_of_mem _ List.mem_cons_self
  have final : disassembly.decodeAll.disassembly.instructions.toList.getLast? = some last := by
    rw [split]
    rfl
  have tag (site : BitAddress) (inside : disassembly.decodeAll.disassembly.image.contains site)
      (above : (⟨0x8025⟩ : BitAddress) ≤ site) (below : site < ⟨0x8030⟩)
      : disassembly.decodeAll.disassembly.image.isTagged site 1 (last.bitTag site.toNat) :=
    tagged last member site inside (address ▸ above) (ends ▸ below)
  simp only [Instruction.bitTag, address] at tag
  refine ⟨disassembly, 2, accepted, room, succeeded, places, ?_, ?_,
    fun site inside below => covered last final site inside (ends ▸ below)⟩
  · exact tag ⟨0x8029⟩ opcode (by decide) (by decide)
  · exact tag ⟨0x802F⟩ padding (by decide) (by decide)

end Disassembly

end SpeechRom
