import SpeechRom.Proofs.Decode.Branches
import SpeechRom.Proofs.Decode.Labels

/-! The bits that are tagged as branch targets, and no others: targets of branches, what follows a
jump or a return, and the bytes that annotations name.
-/

namespace SpeechRom

-----------------------------------------------------------------------------------------
-- Tags
-----------------------------------------------------------------------------------------

/-- Being inside the image is no branch target. -/
theorem TagSet.minus_inside_meets (tags : TagSet)
    : (tags \ inside).meets branchTarget = tags.meets branchTarget := by
  obtain ⟨tags⟩ := tags
  have apart : ~~~(0x80 : UInt8) &&& 0x10 = 0x10 := by decide
  change ((tags &&& ~~~0x80) &&& 0x10 != 0) = (tags &&& 0x10 != 0)
  rw [UInt8.and_assoc, apart]

/-- A tagging marks a bit as a branch target. -/
def Tagging.Marks (tagging : Tagging) (bit : Nat) : Prop :=
  tagging.start.toNat ≤ bit
  ∧ bit < tagging.start.toNat + tagging.length.toNat
  ∧ tagging.tags.meets TagSet.branchTarget

theorem Tagging.not_marks (start : BitAddress) (length : UInt32) {tags : TagSet}
    (other : tags.meets TagSet.branchTarget = false) (bit : Nat)
    : ¬ (Tagging.mk start length tags).Marks bit := by
  rintro ⟨-, -, met⟩
  cases other.symm.trans met

theorem Reading.targetTagging_marks (address site : BitAddress)
    : (targetTagging address).Marks site.toNat ↔ address = site := by
  have one : (targetTagging address).length.toNat = 1 := rfl
  have start : (targetTagging address).start = address := rfl
  have met : TagSet.branchTarget.meets TagSet.branchTarget := by decide
  constructor
  · rintro ⟨above, below, -⟩
    rw [start] at above below
    exact BitAddress.ext_toNat (by omega)
  · rintro rfl
    refine ⟨Nat.le_refl _, ?_, met⟩
    rw [start]
    omega

namespace Image

/-- A bit carries the tag of branch targets. -/
def IsTarget (image : Image) (bit : Nat) : Prop :=
  (image.tagsAt bit).meets TagSet.branchTarget

theorem isTarget_addTags (image : Image) (start : BitAddress) (length : UInt32) (tags : TagSet)
    (bit : Nat)
    : (image.addTags start length tags).IsTarget bit
      ↔ image.IsTarget bit ∨ (image.Holds bit ∧ (Tagging.mk start length tags).Marks bit) := by
  simp only [IsTarget, addTags, tagsAt_updateTags, Tagging.Marks]
  by_cases range : image.Holds bit ∧ start.toNat ≤ bit ∧ bit < start.toNat + length.toNat
  · rw [if_pos range, TagSet.meets_union, Bool.or_eq_true, TagSet.minus_inside_meets]
    obtain ⟨inside, above, below⟩ := range
    exact or_congr_right ⟨fun met => ⟨inside, above, below, met⟩, fun marks => marks.2.2.2⟩
  · rw [if_neg range]
    refine ⟨.inl, ?_⟩
    rintro (old | ⟨inside, above, below, -⟩)
    · exact old
    · exact absurd ⟨inside, above, below⟩ range

theorem isTarget_applyTaggings (image : Image) (taggings : List Tagging) (bit : Nat)
    : (applyTaggings image taggings).IsTarget bit
      ↔ image.IsTarget bit ∨ (image.Holds bit ∧ ∃ tagging ∈ taggings, tagging.Marks bit) := by
  unfold applyTaggings
  induction taggings generalizing image with
  | nil => simp
  | cons tagging rest ih =>
      have holds := (image.addTags_sameBits tagging.start tagging.length tagging.tags).holds bit
      rw [List.foldl_cons, ih, isTarget_addTags, holds, or_assoc, ← and_or_left]
      simp

theorem isTagged_branchTarget_iff (image : Image) (address : BitAddress)
    : image.isTagged address 1 TagSet.branchTarget
      ↔ image.Holds address.toNat ∧ image.IsTarget address.toNat :=
  image.isTagged_one_iff address rfl

end Image

-----------------------------------------------------------------------------------------
-- Instructions
-----------------------------------------------------------------------------------------

namespace Instruction

/-- Whether the instruction goes back to where a call came from. -/
def isReturn (image : Image) (instruction : Instruction) : Bool :=
  instruction.opcode.val = 0 && image.readForward instruction.address 4 = 0

/-- An instruction makes an address a branch target: it branches there, or it is a jump that ends
there, or a return that ends there, unless a zero byte follows.
-/
def LeadsTo (image : Image) (instruction : Instruction) (site : BitAddress) : Prop :=
  (instruction.isBranch ∧ instruction.target image = site)
  ∨ (instruction.isJump ∧ instruction.finish = site)
  ∨ (instruction.isReturn image ∧ instruction.finish = site ∧ image.readForward site 8 ≠ 0)

end Instruction

theorem Image.SameBits.leadsTo {left right : Image} (same : left.SameBits right)
    (instruction : Instruction) (site : BitAddress)
    : instruction.LeadsTo left site ↔ instruction.LeadsTo right site := by
  have first := same.readForward instruction.address 4
  have next := same.readForward site 8
  rw [Instruction.LeadsTo, Instruction.LeadsTo, Instruction.isReturn, Instruction.isReturn, first,
    next, same.target]

namespace Reading

/-- Behind tags that mark nothing, the tags of targets mark their addresses. -/
theorem marks_append_targets {plain : List Tagging}
    (other : ∀ tagging ∈ plain, tagging.tags.meets TagSet.branchTarget = false)
    (sites : List BitAddress) (site : BitAddress)
    : (∃ tagging ∈ plain ++ sites.map targetTagging, tagging.Marks site.toNat)
      ↔ site ∈ sites := by
  constructor
  · rintro ⟨tagging, member, marks⟩
    rcases List.mem_append.mp member with old | new
    · exact absurd marks (Tagging.not_marks _ _ (other tagging old) _)
    · obtain ⟨address, inside, rfl⟩ := List.mem_map.mp new
      exact (targetTagging_marks address site).mp marks ▸ inside
  · intro member
    exact ⟨targetTagging site, List.mem_append_right _ (List.mem_map_of_mem member),
      (targetTagging_marks site site).mpr rfl⟩

variable {table : FormatTable} {image : Image} {mode : Mode} {address : BitAddress}

/-- What the instruction of a reading leads to depends on its opcode, its first bits and its end. -/
theorem leadsTo_iff {label : String} {site : BitAddress}
    : ((ofImage table image mode address).instruction label).LeadsTo image site
      ↔ let opcode := (ofImage table image mode address).opcode
        let next := address + (ofImage table image mode address).length
        let target :=
          branchTarget image mode address (FormatTable.nibble (image.readForward address 4))
        ((opcode = 7 ∨ opcode = 11) ∧ target = site)
        ∨ (opcode = 7 ∧ next = site)
        ∨ ((opcode = 0 ∧ image.readForward address 4 = 0) ∧ next = site
          ∧ image.readForward site 8 ≠ 0) := by
  rw [Instruction.LeadsTo, instruction_target, isBranch_instruction]
  simp only [Instruction.isJump, Instruction.isReturn, Instruction.finish, instruction,
    ofImage_address, Bool.and_eq_true, decide_eq_true_eq, Fin.ext_iff]
  rfl

/-- The tags of a reading mark exactly the targets that its instruction makes. -/
theorem ofImage_marks (label : String) (site : BitAddress)
    : (∃ tagging ∈ (ofImage table image mode address).taggings, tagging.Marks site.toNat)
      ↔ ((ofImage table image mode address).instruction label).LeadsTo image site := by
  obtain ⟨sites, taggings, found⟩ := ofImage_sites table image mode address
  rw [taggings, marks_append_targets fun _ => plain_meets, leadsTo_iff]
  generalize address + (ofImage table image mode address).length = next at found ⊢
  generalize (ofImage table image mode address).opcode = opcode at found ⊢
  cases found with
  | jump => simp [eq_comm, or_comm]
  | call => simp [eq_comm]
  | goBack zero more =>
      have ends : site = next ↔ next = site ∧ image.readForward site 8 ≠ 0 :=
        ⟨fun same => ⟨same.symm, same ▸ more⟩, fun ends => ends.1.symm⟩
      simp [zero, ends]
  | goBackLast last =>
      have never : next = site → image.readForward site 8 = 0 := fun same => same ▸ last
      simpa using fun _ => never
  | setPage page => simp [page]
  | other notReturn notJump notCall => simp [notReturn, notJump, notCall]

end Reading

-----------------------------------------------------------------------------------------
-- First pass
-----------------------------------------------------------------------------------------

/-- A step adds the targets that its instruction makes in the image, and no others. -/
theorem decode_isTarget {table : FormatTable} {address : BitAddress} {state : DecoderState}
    {instruction : Instruction}
    (outcome : (decode table address state).outcome = .ok instruction) (site : BitAddress)
    : (decode table address state).state.image.IsTarget site.toNat
      ↔ state.image.IsTarget site.toNat
        ∨ (state.image.Holds site.toNat ∧ instruction.LeadsTo state.image site) := by
  obtain ⟨⟨label, rfl⟩, -⟩ := decode_ok_reading outcome
  rw [(decode_ok_cases outcome).1, Reading.taggedImage, Image.isTarget_applyTaggings,
    Reading.ofImage_marks label]

/-- The targets of an image after instructions have been decoded: those that it had at the start,
and what the instructions lead to.
-/
structure Image.Marked (image start : Image) (decoded : List Instruction) : Prop where
  bits : image.SameBits start
  targets : ∀ site : BitAddress,
    image.IsTarget site.toNat
    ↔ start.IsTarget site.toNat
      ∨ (start.Holds site.toNat ∧ ∃ instruction ∈ decoded, instruction.LeadsTo start site)

theorem decode_marked {table : FormatTable} {start : Image} {decoded : List Instruction}
    {address : BitAddress} {state : DecoderState} {instruction : Instruction}
    (marked : state.image.Marked start decoded)
    (outcome : (decode table address state).outcome = .ok instruction)
    : (decode table address state).state.image.Marked start (decoded ++ [instruction]) := by
  refine ⟨?_, fun site => ?_⟩
  · exact (decode_sameBits ..).trans marked.bits
  · have one : (∃ known ∈ decoded ++ [instruction], known.LeadsTo start site)
        ↔ (∃ known ∈ decoded, known.LeadsTo start site) ∨ instruction.LeadsTo start site := by
      simp [or_and_right, exists_or]
    rw [decode_isTarget outcome, marked.targets, marked.bits.holds, marked.bits.leadsTo, one,
      or_assoc, ← and_or_left]

namespace Annotations

theorem isTarget_tagOne (image : Image) (hint : Annotation) (site : BitAddress)
    : (tagOne image hint).IsTarget site.toNat
      ↔ image.IsTarget site.toNat
        ∨ (image.Holds site.toNat
          ∧ ∃ name byte, hint = .symbol name byte ∧ BitAddress.ofByte byte = site) := by
  have other (image : Image) (start : BitAddress) (length : UInt32) {tags : TagSet}
      (apart : tags.meets TagSet.branchTarget = false)
      : (image.addTags start length tags).IsTarget site.toNat ↔ image.IsTarget site.toNat := by
    have unmarked := Tagging.not_marks start length apart site.toNat
    simp [Image.isTarget_addTags, unmarked]
  cases hint with
  | code | operand =>
      rw [tagOne, other _ _ _ (by decide)]
      simp
  | data =>
      rw [tagOne, other _ _ _ (by decide), other _ _ _ (by decide)]
      simp
  | symbol name byte =>
      have here := Reading.targetTagging_marks (BitAddress.ofByte byte) site
      rw [Reading.targetTagging] at here
      rw [tagOne, Image.isTarget_addTags, here]
      simp
  | origin => simp [tagOne]

/-- Annotations add the bytes of their symbols, by induction on them. -/
theorem isTarget_tagImage (image : Image) (annotations : Annotations) (site : BitAddress)
    : (annotations.tagImage image).IsTarget site.toNat
      ↔ image.IsTarget site.toNat
        ∨ (image.Holds site.toNat
          ∧ ∃ name byte, .symbol name byte ∈ annotations ∧ BitAddress.ofByte byte = site) := by
  unfold tagImage
  induction annotations generalizing image with
  | nil => simp
  | cons hint rest ih =>
      have holds := (tagImage_sameBits image [hint]).holds site.toNat
      change (tagOne image hint).Holds _ ↔ _ at holds
      have split : (∃ name byte, .symbol name byte ∈ hint :: rest ∧ BitAddress.ofByte byte = site)
          ↔ (∃ name byte, hint = .symbol name byte ∧ BitAddress.ofByte byte = site)
            ∨ (∃ name byte, .symbol name byte ∈ rest ∧ BitAddress.ofByte byte = site) := by
        simp only [List.mem_cons, or_and_right, exists_or, eq_comm]
      rw [List.foldl_cons, ih, isTarget_tagOne, holds, or_assoc, ← and_or_left, split]

end Annotations

namespace Disassembly

/-- Before the first pass, the targets are the bytes that annotations name. -/
theorem setup_isTarget {rom : Bytes} {annotations : Option Annotations} {settings : Settings}
    {disassembly : Disassembly}
    (accepted : (setup rom annotations settings).outcome = .ok disassembly) (site : BitAddress)
    : disassembly.image.IsTarget site.toNat
      ↔ disassembly.image.Holds site.toNat
        ∧ ∃ name byte, .symbol name byte ∈ annotations.getD []
            ∧ BitAddress.ofByte byte = site := by
  obtain ⟨image, made, tagged, -⟩ := setup_ok accepted
  obtain ⟨-, blank, created, rfl⟩ := imageOf_ok made
  have unmarked : ¬ (blank.load rom).IsTarget site.toNat := by
    rw [Image.IsTarget, Image.tagsAt_load_create created, TagSet.empty_meets]
    exact Bool.false_ne_true
  have holds := ((annotations.getD []).tagImage_sameBits (blank.load rom)).holds site.toNat
  rw [tagged, Annotations.isTarget_tagImage, holds]
  exact or_iff_right unmarked

/-- After a first pass that succeeds, the bits of the image that are tagged as branch targets are
the targets of branches, the ends of jumps, the ends of returns that no zero byte follows, and the
first bits of bytes that annotations name. All of them are first bits of bytes.
-/
theorem decodeAll_branchTarget_iff {rom : Bytes} {annotations : Option Annotations}
    {settings : Settings} {disassembly : Disassembly} {count : Nat}
    (accepted : (setup rom annotations settings).outcome = .ok disassembly)
    (room : disassembly.image.finish.toNat ≤ 4294967296 - 136)
    (succeeded : disassembly.decodeAll.outcome = .ok count)
    : let image := disassembly.decodeAll.disassembly.image
      let instructions := disassembly.decodeAll.disassembly.instructions.toList
      (∀ site, image.contains site
        → (image.isTagged site 1 TagSet.branchTarget
          ↔ (∃ instruction ∈ instructions,
                instruction.isBranch ∧ instruction.target image = site)
            ∨ (∃ instruction ∈ instructions, instruction.isJump ∧ instruction.finish = site)
            ∨ (∃ instruction ∈ instructions,
                instruction.isReturn image ∧ instruction.finish = site
                ∧ image.readForward site 8 ≠ 0)
            ∨ (∃ name byte, .symbol name byte ∈ annotations.getD []
                ∧ BitAddress.ofByte byte = site)))
      ∧ ∀ site, image.isTagged site 1 TagSet.branchTarget
        → image.contains site ∧ site.toNat % 8 = 0 := by
  obtain ⟨aligned, -, -⟩ := decodeAll_clash (setup_labelled accepted) room
  obtain ⟨stop, final, passes, ends⟩ := disassembly.decodeAll_ends room
  obtain ⟨-, -, sameImage, -⟩ | ⟨error, -, failed, -⟩ := ends
  · have start : disassembly.image.Marked disassembly.image [] :=
      ⟨.refl _, fun site => by simp⟩
    have marked := passes.accumulates (fun decoded _ state => state.image.Marked _ decoded)
      (fun _ _ _ _ _ outcome held => decode_marked held outcome) start
    rw [List.nil_append, ← sameImage] at marked
    intro image instructions
    refine ⟨fun site inside => ?_, fun site carries => ?_⟩
    · have holds := (image.contains_iff site).mp inside
      have startHolds := (marked.bits.holds site.toNat).mp holds
      have leads : (∃ instruction ∈ instructions, instruction.LeadsTo disassembly.image site)
          ↔ ∃ instruction ∈ instructions, instruction.LeadsTo image site :=
        exists_congr fun instruction => and_congr_right fun _ =>
          (marked.bits.leadsTo instruction site).symm
      rw [image.isTagged_branchTarget_iff, and_iff_right holds, marked.targets,
        setup_isTarget accepted, and_iff_right startHolds, and_iff_right startHolds, or_comm, leads]
      simp only [Instruction.LeadsTo, and_or_left, exists_or, or_assoc]
    · have inside := (image.isTagged_branchTarget_iff site).mp carries
      exact ⟨(image.contains_iff site).mpr inside.1, aligned.of_isTagged carries⟩
  · cases failed.symm.trans succeeded

/-- A jump to byte `$1006`, a return, a pause and two more returns, with a name for byte `$1004`.
Marked are the end of the jump, the end of the first return, the name and the target, and not the
ends of the returns that a zero byte follows.
-/
theorem decodeAll_branchTarget_iff_returns
    : ∃ disassembly count,
        (setup #[0x07, 0x06, 0x00, 0x0F, 0x00, 0x00] (some [.symbol "NAMED" 0x1004])
          { origin := some 0x1000 }).outcome = .ok disassembly
        ∧ disassembly.image.finish.toNat ≤ 4294967296 - 136
        ∧ disassembly.decodeAll.outcome = .ok count
        ∧ let image := disassembly.decodeAll.disassembly.image
          let instructions := disassembly.decodeAll.disassembly.instructions.toList
          ((List.range 64).filter fun bit =>
            image.isTagged ⟨0x8000 + UInt32.ofNat bit⟩ 1 TagSet.branchTarget) = [16, 24, 32, 48]
          ∧ (∀ site, image.isTagged site 1 TagSet.branchTarget → site.toNat % 8 = 0)
          ∧ ¬ ∃ instruction ∈ instructions, instruction.isReturn image
              ∧ instruction.finish = ⟨0x8028⟩ ∧ image.readForward ⟨0x8028⟩ 8 ≠ 0 := by
  obtain ⟨disassembly, accepted, room, decoded, inside, clear, sites⟩
      : ∃ disassembly,
          (setup #[0x07, 0x06, 0x00, 0x0F, 0x00, 0x00] (some [.symbol "NAMED" 0x1004])
            { origin := some 0x1000 }).outcome = .ok disassembly
          ∧ disassembly.image.finish.toNat ≤ 4294967296 - 136
          ∧ disassembly.decodeAll.outcome.toOption = some 5
          ∧ disassembly.decodeAll.disassembly.image.contains ⟨0x8028⟩
          ∧ ¬ disassembly.decodeAll.disassembly.image.isTagged ⟨0x8028⟩ 1 TagSet.branchTarget
          ∧ ((List.range 64).filter fun bit =>
              disassembly.decodeAll.disassembly.image.isTagged ⟨0x8000 + UInt32.ofNat bit⟩ 1
                TagSet.branchTarget) = [16, 24, 32, 48] :=
    ⟨_, rfl, by decide, by decide +kernel, by decide +kernel, by decide +kernel,
      by decide +kernel⟩
  cases succeeded : disassembly.decodeAll.outcome with
  | error cause =>
      rw [succeeded] at decoded
      cases decoded
  | ok count =>
      obtain ⟨exactly, aligned⟩ := decodeAll_branchTarget_iff accepted room succeeded
      refine ⟨disassembly, count, accepted, room, succeeded, sites,
        fun site carries => (aligned site carries).2, fun returns => ?_⟩
      exact clear ((exactly ⟨0x8028⟩ inside).mpr (.inr (.inr (.inl returns))))

end Disassembly

end SpeechRom
