import SpeechRom.Proofs.Decode.Coverage
import SpeechRom.Proofs.Decode.Modes

/-! What a step of decoding leaves alone. Apart from branch targets it tags bits of the instruction
only, with one exception: the setting of the page has the format of a return, whose padding is
tagged although the instruction ends before it.
-/

namespace SpeechRom

-----------------------------------------------------------------------------------------
-- Offsets
-----------------------------------------------------------------------------------------

namespace BitAddress

/-- How far a bit lies behind an address, going around the top where it lies below. -/
def offsetFrom (site start : BitAddress) : Nat := (site.index - start.index).toNat

theorem offsetFrom_eq (site start : BitAddress)
    : site.offsetFrom start = (4294967296 - start.toNat + site.toNat) % 4294967296 :=
  UInt32.toNat_sub site.index start.index

end BitAddress

/-- A tagging that starts so many bits behind an address covers bits at these offsets only. -/
theorem Tagging.Covers.offset {tagging : Tagging} {address site : BitAddress} {skipped : UInt32}
    (covers : tagging.Covers site.toNat) (start : tagging.start = address + skipped)
    (room : skipped.toNat + tagging.length.toNat ≤ 4294967296)
    : skipped.toNat ≤ site.offsetFrom address
      ∧ site.offsetFrom address < skipped.toNat + tagging.length.toNat := by
  have low := address.toNat_lt
  have high := site.toNat_lt
  obtain ⟨above, below⟩ := covers
  rw [start, BitAddress.toNat_add] at above below
  rw [BitAddress.offsetFrom_eq]
  omega

/-- A bit belongs to an instruction, which may go around the top. -/
def Instruction.Spans (instruction : Instruction) (site : BitAddress) : Prop :=
  site.offsetFrom instruction.address < instruction.length.toNat

/-- An instruction that does not go around the top has the bits from its address up to its end. -/
theorem Instruction.spans_iff {instruction : Instruction}
    (onward : instruction.address ≤ instruction.finish) (site : BitAddress)
    : instruction.Spans site ↔ instruction.address ≤ site ∧ site < instruction.finish := by
  have low := instruction.address.toNat_lt
  have high := site.toNat_lt
  have long := instruction.length.toNat_lt
  have ends := BitAddress.toNat_add instruction.address instruction.length
  rw [← finish] at ends
  have upward : instruction.address.toNat ≤ instruction.finish.toNat := onward
  rw [Spans, BitAddress.offsetFrom_eq, BitAddress.lt_iff]
  change _ ↔ instruction.address.toNat ≤ site.toNat ∧ _
  omega

/-- A bit lies behind an instruction that sets the page, where a return would have its padding. -/
def Instruction.PadsPage (image : Image) (instruction : Instruction) (site : BitAddress) : Prop :=
  instruction.isSetPage image
  ∧ site.offsetFrom instruction.finish < instruction.finish.bitsToBoundary.toNat

instance (image : Image) (instruction : Instruction) (site : BitAddress)
    : Decidable (instruction.PadsPage image site) :=
  inferInstanceAs (Decidable (_ ∧ _))

-----------------------------------------------------------------------------------------
-- Tags beside branch targets
-----------------------------------------------------------------------------------------

namespace TagSet

theorem union_minus (left right taken : TagSet)
    : (left ∪ right) \ taken = (left \ taken) ∪ (right \ taken) :=
  congrArg mk (UInt8.toBitVec_inj.mp BitVec.and_or_distrib_right)

theorem union_empty (tags : TagSet) : tags ∪ empty = tags := congrArg mk UInt8.or_zero

end TagSet

namespace Image

theorem tagsAt_addTags (image : Image) (tagging : Tagging) (bit : Nat)
    : (image.addTags tagging.start tagging.length tagging.tags).tagsAt bit
      = if image.Holds bit ∧ tagging.Covers bit then
          image.tagsAt bit ∪ (tagging.tags \ TagSet.inside)
        else image.tagsAt bit := by
  rw [addTags, tagsAt_updateTags]
  exact if_congr Iff.rfl rfl rfl

/-- Taggings that reach a bit with branch targets only leave its other tags as they were, by
induction on them.
-/
theorem tagsAt_applyTaggings {taggings : List Tagging} {bit : Nat}
    (quiet : ∀ tagging ∈ taggings, tagging.Covers bit → tagging.tags = TagSet.branchTarget)
    (image : Image)
    : (applyTaggings image taggings).tagsAt bit \ TagSet.branchTarget
      = image.tagsAt bit \ TagSet.branchTarget := by
  induction taggings generalizing image with
  | nil => rfl
  | cons tagging rest ih =>
      obtain ⟨first, later⟩ := List.forall_mem_cons.mp quiet
      refine (ih later _).trans ?_
      rw [tagsAt_addTags]
      split
      · rename_i range
        have nothing : (TagSet.branchTarget \ TagSet.inside) \ TagSet.branchTarget = TagSet.empty :=
          rfl
        rw [first range.2, TagSet.union_minus, nothing, TagSet.union_empty]
      · rfl

/-- The tags that a bit of the image is said to have: its own, and that it is inside. -/
theorem tagsOver_one {image : Image} {site : BitAddress} (inside : image.Holds site.toNat)
    : image.tagsOver site 1 = TagSet.inside ∪ image.tagsAt site.toNat := by
  have one : (1 : UInt32).toNat = 1 := rfl
  have count : image.rangeCount site 1 = 1 := by
    simp only [rangeCount, rangeStop, rangeStart, one]
    obtain ⟨low, high⟩ := inside
    omega
  rw [tagsOver, count, tagsAt, if_pos inside.1]
  rfl

end Image

-----------------------------------------------------------------------------------------
-- Readings
-----------------------------------------------------------------------------------------

/-- Every field of a format lies within the length of the whole, by induction on the fields. -/
theorem Format.placed_within {format : Format} {start : BitAddress}
    (small : format.mostBits < 4294967296) {placed : PlacedField}
    (member : placed ∈ format.place start)
    : ∃ skipped : UInt32,
        placed.start = start + skipped
        ∧ skipped.toNat + placed.width.toNat ≤ (placedLength (format.place start)).toNat := by
  induction format generalizing start with
  | nil => cases member
  | cons field rest ih =>
      have bits : mostBits (field :: rest) = field.mostBits + mostBits rest := rfl
      have first := (field.widthAt_bounds start).2
      have others := (placedLength_bounds rest (start + field.widthAt start) (by omega)).2
      have total : (placedLength (place start (field :: rest))).toNat
          = (field.widthAt start).toNat
            + (placedLength (place (start + field.widthAt start) rest)).toNat := by
        rw [place, placedLength_cons]
        dsimp only
        rw [UInt32.toNat_add, Nat.mod_eq_of_lt (by omega)]
      rw [total]
      rcases List.mem_cons.mp member with rfl | later
      · refine ⟨0, (BitAddress.add_zero start).symm, ?_⟩
        have zero : (0 : UInt32).toNat = 0 := rfl
        dsimp only
        omega
      · obtain ⟨skipped, behind, within⟩ := ih (by omega) later
        refine ⟨field.widthAt start + skipped, ?_, ?_⟩
        · rw [behind, BitAddress.add_assoc]
        · rw [UInt32.toNat_add, Nat.mod_eq_of_lt (by omega)]
          omega

namespace Reading

/-- The tags of padding at an address. -/
def paddingTagging (start : BitAddress) : Tagging := ⟨start, start.bitsToBoundary, TagSet.operand⟩

/-- The only operand in the format of returns is its padding, which comes after a byte. -/
theorem operandTaggings_returnOrPage (address : BitAddress)
    : operandTaggings (Sp0256.returnOrPage.place address)
      = [paddingTagging (address + (8 : UInt32))] := by
  have opcode : (Field.mnemonic 8 "RTS/PAGE").isMnemonic = true := by decide
  have operand : Field.padding.isMnemonic = false := by decide
  have byte : (Field.mnemonic 8 "RTS/PAGE").widthAt address = 8 := rfl
  have rest : Field.padding.widthAt (address + (8 : UInt32))
      = (address + (8 : UInt32)).bitsToBoundary := rfl
  simp only [Sp0256.returnOrPage, Format.place, byte, rest, operandTaggings, List.filter_cons,
    opcode, operand, Bool.not_true, Bool.not_false, if_true]
  rfl

/-- Padding covers the bits up to the next byte boundary, which is never past the top. -/
theorem paddingTagging_covers_iff (start site : BitAddress)
    : (paddingTagging start).Covers site.toNat
      ↔ site.offsetFrom start < start.bitsToBoundary.toNat := by
  have low := start.toNat_lt
  have high := site.toNat_lt
  have gap := start.toNat_bitsToBoundary
  rw [Tagging.Covers, BitAddress.offsetFrom_eq, paddingTagging]
  dsimp only
  omega

variable {image : Image} {mode : Mode} {address site : BitAddress}

/-- The setting of the page has one byte and the format of a return. -/
theorem ofImage_setPage (first : (ofImage Sp0256.table image mode address).opcode = 0)
    (page : (FormatTable.nibble (image.readForward address 4)).val ≠ 0)
    : (ofImage Sp0256.table image mode address).length = 8
      ∧ (ofImage Sp0256.table image mode address).format = Sp0256.returnOrPage := by
  constructor
  · rw [ofImage_opcode] at first
    unfold ofImage
    simp only [first, if_neg page]
  · rw [ofImage_format, first]
    rfl

/-- The tags of the first byte do not reach past it. -/
theorem byteTaggings_not_covers (behind : 8 ≤ site.offsetFrom address) {tagging : Tagging}
    (member : tagging ∈ byteTaggings address)
    : ¬ tagging.Covers site.toNat := by
  intro covers
  rcases List.mem_cons.mp member with rfl | member
  · have near := covers.offset (BitAddress.add_zero address).symm (Nat.le_of_ble_eq_true rfl)
    exact absurd (Nat.lt_of_lt_of_le near.2 (Nat.le_of_ble_eq_true rfl)) (Nat.not_lt.mpr behind)
  · obtain rfl := List.mem_singleton.mp member
    have near := covers.offset rfl (Nat.le_of_ble_eq_true rfl)
    exact absurd near.2 (Nat.not_lt.mpr behind)

/-- The taggings of targets are branch targets. -/
theorem targets_quiet (sites : List BitAddress) (bit : Nat)
    : ∀ tagging ∈ sites.map targetTagging,
        tagging.Covers bit → tagging.tags = TagSet.branchTarget := by
  intro tagging member _
  obtain ⟨_, -, rfl⟩ := List.mem_map.mp member
  rfl

/-- Bits behind the format are reached with branch targets only. -/
theorem ofImage_quiet_behind
    (behind : (placedLength ((ofImage Sp0256.table image mode address).format.place address)).toNat
      ≤ site.offsetFrom address)
    : ∀ tagging ∈ (ofImage Sp0256.table image mode address).taggings,
        tagging.Covers site.toNat → tagging.tags = TagSet.branchTarget := by
  obtain ⟨sites, taggings, -⟩ := ofImage_sites Sp0256.table image mode address
  have format := ofImage_format Sp0256.table image mode address
  have bits := Sp0256.table_bits (ofImage Sp0256.table image mode address).opcode
    (FormatTable.modeOf mode.operandMode)
  have length := Sp0256.length_bounds (ofImage Sp0256.table image mode address).opcode
    (FormatTable.modeOf mode.operandMode) address
  rw [← format] at bits length
  intro tagging member covers
  rw [taggings] at member
  rcases List.mem_append.mp member with plain | target
  · rcases List.mem_append.mp plain with byte | operand
    · exact absurd covers (byteTaggings_not_covers (length.1.trans behind) byte)
    obtain ⟨placed, field, rfl⟩ := List.mem_map.mp operand
    obtain ⟨skipped, start, within⟩ :=
      Format.placed_within (by omega) (List.mem_of_mem_filter field)
    have near := covers.offset start (by dsimp only; omega)
    dsimp only at near
    omega
  · exact targets_quiet sites _ tagging target covers

/-- The padding of a return is tagged behind the setting of a page too, and no other bit behind the
instruction. Witness: it is the only operand field of the format.
-/
theorem tagsAt_setPage (first : (ofImage Sp0256.table image mode address).opcode = 0)
    (page : (FormatTable.nibble (image.readForward address 4)).val ≠ 0)
    (inside : image.Holds site.toNat) (behind : 8 ≤ site.offsetFrom address)
    : let reading := ofImage Sp0256.table image mode address
      let next := address + reading.length
      (reading.taggedImage image).tagsAt site.toNat \ TagSet.branchTarget
        = (if site.offsetFrom next < next.bitsToBoundary.toNat then
            image.tagsAt site.toNat ∪ TagSet.operand
          else image.tagsAt site.toNat) \ TagSet.branchTarget := by
  intro reading next
  obtain ⟨length, format⟩ := ofImage_setPage first page
  obtain ⟨sites, taggings, -⟩ := ofImage_sites Sp0256.table image mode address
  have ends : next = address + (8 : UInt32) := congrArg (address + ·) length
  let byte := applyTaggings image (byteTaggings address)
  let padding := paddingTagging next
  have steps : reading.taggedImage image
      = applyTaggings (byte.addTags padding.start padding.length padding.tags)
          (sites.map targetTagging) := by
    rw [taggedImage, taggings, format, operandTaggings_returnOrPage, ← ends, applyTaggings,
      List.foldl_append, List.foldl_append]
    rfl
  have byteTags : byte.tagsAt site.toNat \ TagSet.branchTarget
      = image.tagsAt site.toNat \ TagSet.branchTarget :=
    Image.tagsAt_applyTaggings
      (fun _ member covers => absurd covers (byteTaggings_not_covers behind member)) image
  have held : byte.Holds site.toNat :=
    ((applyTaggings_sameBits image (byteTaggings address)).holds site.toNat).mpr inside
  have covered : byte.Holds site.toNat ∧ padding.Covers site.toNat
      ↔ site.offsetFrom next < next.bitsToBoundary.toNat :=
    (and_iff_right held).trans (paddingTagging_covers_iff next site)
  have kept : TagSet.operand \ TagSet.inside = TagSet.operand := rfl
  rw [steps, Image.tagsAt_applyTaggings (targets_quiet sites site.toNat), Image.tagsAt_addTags,
    if_congr covered rfl rfl]
  split
  · rw [TagSet.union_minus, byteTags, ← TagSet.union_minus]
    exact congrArg (fun tags => (image.tagsAt site.toNat ∪ tags) \ TagSet.branchTarget) kept
  · exact byteTags

/-- What a reading does to a bit behind its instruction, beside branch targets: the padding behind
the setting of a page becomes an operand, and nothing else changes.
-/
theorem tagsAt_taggedImage (label : String) (inside : image.Holds site.toNat)
    (behind : (ofImage Sp0256.table image mode address).length.toNat ≤ site.offsetFrom address)
    : let reading := ofImage Sp0256.table image mode address
      (reading.taggedImage image).tagsAt site.toNat \ TagSet.branchTarget
        = (if (reading.instruction label).PadsPage image site then
            image.tagsAt site.toNat ∪ TagSet.operand
          else image.tagsAt site.toNat) \ TagSet.branchTarget := by
  intro reading
  have setsPage : (reading.instruction label).isSetPage image
      ↔ reading.opcode = 0 ∧ (FormatTable.nibble (image.readForward address 4)).val ≠ 0 := by
    rw [Instruction.isSetPage_iff, instruction_immediate]
    rfl
  by_cases page : (reading.instruction label).isSetPage image
  · obtain ⟨first, value⟩ := setsPage.mp page
    have next : (reading.instruction label).finish = address + reading.length := by
      rw [Instruction.finish, instruction, ofImage_address]
    have pads : (reading.instruction label).PadsPage image site
        ↔ site.offsetFrom (address + reading.length)
          < (address + reading.length).bitsToBoundary.toNat := by
      rw [Instruction.PadsPage, next]
      exact and_iff_right page
    rw [if_congr pads rfl rfl]
    refine tagsAt_setPage first value inside ?_
    rwa [(ofImage_setPage first value).1] at behind
  · rw [if_neg fun pads => page pads.1]
    refine Image.tagsAt_applyTaggings (ofImage_quiet_behind ?_) image
    rcases ofImage_length Sp0256.table image mode address with ⟨-, first, value⟩ | length
    · exact absurd (setsPage.mpr ⟨first, value⟩) page
    · rwa [← length]

end Reading

-----------------------------------------------------------------------------------------
-- Steps
-----------------------------------------------------------------------------------------

/-- Beside branch targets, a step that succeeds tags bits of its instruction: those from its address
up to its end, unless it goes around the top. Where it sets the page, it makes operands of the bits
behind it as well, up to the next byte boundary.
-/
theorem decode_tags_instruction_or_padding {address : BitAddress} {state : DecoderState}
    {instruction : Instruction}
    (decoded : (decode Sp0256.table address state).outcome = .ok instruction)
    : (instruction.address ≤ instruction.finish
        → ∀ site, instruction.Spans site
            ↔ instruction.address ≤ site ∧ site < instruction.finish)
      ∧ ∀ site, state.image.contains site → ¬ instruction.Spans site
        → (decode Sp0256.table address state).state.image.tagsOver site 1 \ TagSet.branchTarget
          = (if instruction.PadsPage state.image site then
              state.image.tagsOver site 1 ∪ TagSet.operand
            else state.image.tagsOver site 1) \ TagSet.branchTarget := by
  refine ⟨Instruction.spans_iff, ?_⟩
  intro site inside outside
  have before := (state.image.contains_iff site).mp inside
  have after := ((decode_sameBits Sp0256.table address state).holds site.toNat).mpr before
  obtain ⟨⟨label, rfl⟩, -⟩ := decode_ok_reading decoded
  have behind : (Reading.ofImage Sp0256.table state.image state.mode address).length.toNat
      ≤ site.offsetFrom address := by
    rw [Instruction.Spans, Reading.instruction, Reading.ofImage_address] at outside
    exact Nat.not_lt.mp outside
  rw [Image.tagsOver_one after, Image.tagsOver_one before, (decode_ok_cases decoded).1,
    TagSet.union_minus, Reading.tagsAt_taggedImage label before behind]
  split
  · rw [← TagSet.union_minus, TagSet.union_assoc]
  · rw [← TagSet.union_minus]

/-- A step whose instruction passes a test has succeeded. -/
theorem DecodeStep.outcome_of_any {step : DecodeStep} {test : Instruction → Prop}
    [DecidablePred test] (passed : step.outcome.toOption.any test)
    : ∃ instruction, step.outcome = .ok instruction ∧ test instruction := by
  cases outcome : step.outcome with
  | error cause =>
      rw [outcome] at passed
      cases passed
  | ok instruction =>
      rw [outcome] at passed
      exact ⟨instruction, rfl, of_decide_eq_true passed⟩

namespace Disassembly

/-- Two instructions: one of 26 bits, and one that sets the page. The latter ends at bit 2 of byte
`$1004`, so six bits of that byte lie behind it.
-/
theorem setPage_unaligned
    : ∃ disassembly,
        (setup #[0x06, 0x00, 0x00, 0x0C, 0x00, 0x00, 0x00, 0x00] none
          { origin := some 0x1000 }).outcome = .ok disassembly
        ∧ let state := (decode Sp0256.table ⟨0x8000⟩ disassembly.startState).state
          let step := decode Sp0256.table ⟨0x801A⟩ state
          (∃ instruction,
            step.outcome = .ok instruction
            ∧ instruction.address = ⟨0x801A⟩ ∧ instruction.length = 8
            ∧ instruction.isSetPage state.image)
          ∧ state.image.contains ⟨0x8022⟩ ∧ state.image.contains ⟨0x8028⟩
          ∧ state.image.tagsOver ⟨0x8022⟩ 1 = TagSet.inside
          ∧ step.state.image.tagsOver ⟨0x8022⟩ 1 = TagSet.inside ∪ TagSet.operand := by
  refine ⟨_, rfl, ?_, by decide +kernel, by decide +kernel, by decide +kernel, by decide +kernel⟩
  apply DecodeStep.outcome_of_any
  decide +kernel

/-- A step can tag bits past the end of its instruction: the first bit behind the setting of the
page becomes an operand.
-/
theorem setPage_tags_padding
    : ∃ disassembly instruction,
        (setup #[0x06, 0x00, 0x00, 0x0C, 0x00, 0x00, 0x00, 0x00] none
          { origin := some 0x1000 }).outcome = .ok disassembly
        ∧ let state := (decode Sp0256.table ⟨0x8000⟩ disassembly.startState).state
          let step := decode Sp0256.table ⟨0x801A⟩ state
          step.outcome = .ok instruction
          ∧ state.image.contains ⟨0x8022⟩
          ∧ ¬ (instruction.address ≤ ⟨0x8022⟩ ∧ (⟨0x8022⟩ : BitAddress) < instruction.finish)
          ∧ step.state.image.tagsOver ⟨0x8022⟩ 1 \ TagSet.branchTarget
            ≠ state.image.tagsOver ⟨0x8022⟩ 1 \ TagSet.branchTarget := by
  obtain ⟨disassembly, accepted, ⟨instruction, decoded, start, length, -⟩, inside, -, blank,
    tagged⟩ := setPage_unaligned
  refine ⟨disassembly, instruction, accepted, decoded, inside, ?_, ?_⟩
  · rw [Instruction.finish, start, length]
    decide
  · rw [blank, tagged]
    decide

/-- There the six bits up to the byte boundary become operands, and the bits from the boundary on
keep their tags.
-/
theorem setPage_tags_up_to_boundary
    : ∃ disassembly instruction,
        (setup #[0x06, 0x00, 0x00, 0x0C, 0x00, 0x00, 0x00, 0x00] none
          { origin := some 0x1000 }).outcome = .ok disassembly
        ∧ let state := (decode Sp0256.table ⟨0x8000⟩ disassembly.startState).state
          let step := decode Sp0256.table ⟨0x801A⟩ state
          step.outcome = .ok instruction
          ∧ (state.image.contains ⟨0x8022⟩ ∧ ¬ instruction.Spans ⟨0x8022⟩
            ∧ step.state.image.tagsOver ⟨0x8022⟩ 1 \ TagSet.branchTarget
              = (state.image.tagsOver ⟨0x8022⟩ 1 ∪ TagSet.operand) \ TagSet.branchTarget)
          ∧ (state.image.contains ⟨0x8028⟩ ∧ ¬ instruction.Spans ⟨0x8028⟩
            ∧ step.state.image.tagsOver ⟨0x8028⟩ 1 \ TagSet.branchTarget
              = state.image.tagsOver ⟨0x8028⟩ 1 \ TagSet.branchTarget) := by
  obtain ⟨disassembly, accepted, ⟨instruction, decoded, start, length, page⟩, near, far, -, -⟩ :=
    setPage_unaligned
  have tags := (decode_tags_instruction_or_padding decoded).2
  have outside : ¬ instruction.Spans ⟨0x8022⟩ ∧ ¬ instruction.Spans ⟨0x8028⟩ := by
    rw [Instruction.Spans, Instruction.Spans, start, length]
    decide
  have gap : (⟨0x8022⟩ : BitAddress).offsetFrom instruction.finish
        < instruction.finish.bitsToBoundary.toNat
      ∧ ¬ (⟨0x8028⟩ : BitAddress).offsetFrom instruction.finish
        < instruction.finish.bitsToBoundary.toNat := by
    rw [Instruction.finish, start, length]
    decide
  refine ⟨disassembly, instruction, accepted, decoded, ⟨near, outside.1, ?_⟩, ⟨far, outside.2, ?_⟩⟩
  · rw [tags _ near outside.1, if_pos ⟨page, gap.1⟩]
  · rw [tags _ far outside.2, if_neg fun pads => gap.2 pads.2]

end Disassembly

end SpeechRom
