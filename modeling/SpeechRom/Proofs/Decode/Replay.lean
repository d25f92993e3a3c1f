import SpeechRom.Proofs.Decode.Branches

/-! Decoding again. Bits that carry a tag do not change when it is added once more, and a branch
that is known finds its target named and itself noted. So a first pass over what a first pass has
left reads the same instructions and changes nothing.
-/

namespace SpeechRom

-----------------------------------------------------------------------------------------
-- Tags that are there
-----------------------------------------------------------------------------------------

namespace TagSet

theorem union_assoc (first second third : TagSet)
    : first ∪ second ∪ third = first ∪ (second ∪ third) :=
  congrArg mk (UInt8.or_assoc ..)

theorem union_right_comm (tags first second : TagSet)
    : tags ∪ first ∪ second = tags ∪ second ∪ first := by
  have swapped : first ∪ second = second ∪ first := congrArg mk (UInt8.or_comm ..)
  rw [union_assoc, swapped, union_assoc]

theorem union_self (tags : TagSet) : tags ∪ tags = tags := congrArg mk UInt8.or_self

end TagSet

namespace Image

/-- All bits of a tagging that lie in the image have its tags. -/
def Bears (image : Image) (tagging : Tagging) : Prop :=
  ∀ bit, image.Holds bit → tagging.start.toNat ≤ bit
    → bit < tagging.start.toNat + tagging.length.toNat
    → image.tagsAt bit ∪ (tagging.tags \ TagSet.inside) = image.tagsAt bit

theorem bears_addTags (image : Image) (tagging : Tagging)
    : (image.addTags tagging.start tagging.length tagging.tags).Bears tagging := by
  intro bit inside above below
  have held := ((image.addTags_sameBits ..).holds bit).mp inside
  rw [addTags, tagsAt_updateTags, if_pos ⟨held, above, below⟩, TagSet.union_assoc,
    TagSet.union_self]

/-- Tags that are added later take none away. -/
theorem Bears.addTags {image : Image} {tagging : Tagging} (bears : image.Bears tagging)
    (start : BitAddress) (length : UInt32) (tags : TagSet)
    : (image.addTags start length tags).Bears tagging := by
  intro bit inside above below
  have held := ((image.addTags_sameBits ..).holds bit).mp inside
  have old := bears bit held above below
  rw [Image.addTags, tagsAt_updateTags]
  split
  · rw [TagSet.union_right_comm, old]
  · exact old

theorem Bears.addTags_eq {image : Image} {tagging : Tagging} (bears : image.Bears tagging)
    : image.addTags tagging.start tagging.length tagging.tags = image := by
  refine ext_tagsAt (addTags_sameBits ..) fun bit => ?_
  rw [Image.addTags, tagsAt_updateTags]
  split
  · rename_i range
    exact bears bit range.1 range.2.1 range.2.2
  · rfl

theorem Bears.applyTaggings {image : Image} {tagging : Tagging} (bears : image.Bears tagging)
    (taggings : List Tagging)
    : (applyTaggings image taggings).Bears tagging := by
  unfold SpeechRom.applyTaggings
  induction taggings generalizing image with
  | nil => exact bears
  | cons first rest ih => exact ih (bears.addTags first.start first.length first.tags)

/-- Taggings are borne once they have been applied, by induction on them. -/
theorem bears_applyTaggings (image : Image) (taggings : List Tagging)
    : ∀ tagging ∈ taggings, (applyTaggings image taggings).Bears tagging := by
  induction taggings generalizing image with
  | nil => exact fun _ member => absurd member List.not_mem_nil
  | cons first rest ih =>
      exact List.forall_mem_cons.mpr ⟨(image.bears_addTags first).applyTaggings rest, ih _⟩

/-- Taggings that are borne change nothing, by induction on them. -/
theorem applyTaggings_of_bears {image : Image} {taggings : List Tagging}
    (borne : ∀ tagging ∈ taggings, image.Bears tagging)
    : applyTaggings image taggings = image := by
  induction taggings with
  | nil => rfl
  | cons first rest ih =>
      obtain ⟨head, tail⟩ := List.forall_mem_cons.mp borne
      exact (congrArg (applyTaggings · rest) head.addTags_eq).trans (ih tail)

end Image

-----------------------------------------------------------------------------------------
-- Instructions that are known
-----------------------------------------------------------------------------------------

/-- Images with the same bits are read alike. -/
theorem Image.SameBits.ofImage {left right : Image} (same : left.SameBits right)
    (table : FormatTable) (mode : Mode) (address : BitAddress)
    : Reading.ofImage table left mode address = Reading.ofImage table right mode address := by
  simp only [Reading.ofImage, Reading.branchTarget, same.readForward]

namespace Instruction

/-- The instruction read once more, in the mode in which it was met. -/
def reading (image : Image) (instruction : Instruction) : Reading :=
  Reading.ofImage Sp0256.table image instruction.mode instruction.address

/-- An image and symbols have all that decoding the instruction would leave there. -/
structure Known (image : Image) (symbols : SymbolTable) (instruction : Instruction) : Prop where
  tagged : ∀ tagging ∈ (instruction.reading image).taggings, image.Bears tagging
  named : instruction.isBranch
    → symbols.nameAt? (instruction.target image) 0 = some instruction.operand
  noted : instruction.isBranch
    → (symbols.addReference (instruction.target image) instruction.address).1 = symbols

end Instruction

/-- A step gives the reading of its instruction. -/
theorem decode_reading {address : BitAddress} {state : DecoderState} {instruction : Instruction}
    (outcome : (decode Sp0256.table address state).outcome = .ok instruction)
    : instruction.reading state.image
      = Reading.ofImage Sp0256.table state.image state.mode address := by
  obtain ⟨⟨label, rfl⟩, -⟩ := decode_ok_reading outcome
  simp only [Instruction.reading, Reading.instruction, Reading.ofImage_address,
    Reading.ofImage_entryMode]

/-- No step is refused for its length, so a reading that has its label is the instruction. -/
theorem finishStep_sp0256 (image : Image) (mode : Mode) (address : BitAddress)
    (tagged : Image) (symbols : SymbolTable) (label : String) (added : Option Symbol)
    : let reading := Reading.ofImage Sp0256.table image mode address
      finishStep reading tagged symbols label added
      = ⟨⟨tagged, symbols, reading.exitMode⟩, .ok (reading.instruction label), added⟩ := by
  intro reading
  have long : ¬ reading.length < 8 := by
    have bytes := (Reading.ofImage_sp0256_length image mode address).1
    rw [UInt32.lt_iff_toNat_lt, Nat.not_lt]
    exact bytes
  rw [finishStep, if_neg long]

/-- A known instruction is decoded as before, and nothing but the mode moves on. -/
theorem decode_known {image : Image} {symbols : SymbolTable} {address : BitAddress}
    {state : DecoderState} {instruction : Instruction} (bits : image.SameBits state.image)
    (outcome : (decode Sp0256.table address state).outcome = .ok instruction)
    (known : instruction.Known image symbols)
    : decode Sp0256.table address ⟨image, symbols, state.mode⟩
      = ⟨⟨image, symbols, (decode Sp0256.table address state).state.mode⟩, .ok instruction,
          none⟩ := by
  have place := (decode_ok outcome).1
  have mode := (decode_ok_reading outcome).2
  have same := bits.ofImage Sp0256.table state.mode address
  have tagged : applyTaggings image
      (Reading.ofImage Sp0256.table state.image state.mode address).taggings = image := by
    refine Image.applyTaggings_of_bears ?_
    rw [← decode_reading outcome, Instruction.reading, ← bits.ofImage]
    exact known.tagged
  rcases decode_ok_cases outcome with
    ⟨-, ⟨target, labelling, operand, -, shown, -⟩ | ⟨other, shown, -⟩⟩
  · obtain ⟨opcode, leads⟩ := Reading.ofImage_branch_iff.mp operand
    have branch : instruction.isBranch := by
      rw [shown]
      exact (Reading.isBranch_instruction _ _).mpr opcode
    have there : instruction.target image = target := by
      rw [bits.target, shown, Reading.instruction_target, leads]
    have text : instruction.operand = labelling.name.getD "" := by
      rw [shown, Reading.instruction, operand]
      rfl
    have named := known.named branch
    have noted := known.noted branch
    rw [there] at named noted
    rw [place] at noted
    rw [mode]
    simp only [decode, same, tagged, operand, SymbolTable.label, named, noted, finishStep_sp0256,
      Option.getD_some, text, ← shown]
  · rcases decode_cases Sp0256.table address ⟨image, symbols, state.mode⟩ with
      ⟨target, _, operand, -⟩ | ⟨target, _, operand, -⟩ | ⟨-, step⟩
    · exact absurd (same ▸ operand) (other target)
    · exact absurd (same ▸ operand) (other target)
    · rw [step, mode]
      simp only [Reading.taggedImage, same, tagged, finishStep_sp0256, ← shown]

-----------------------------------------------------------------------------------------
-- The first pass once more
-----------------------------------------------------------------------------------------

namespace Ledger

variable {image : Image} {decoded : List Instruction} {ledger : Ledger}

/-- What a ledger notes makes the branches known to its table. -/
theorem Notes.known {symbols : SymbolTable} (notes : ledger.Notes image decoded)
    (refines : symbols.Refines ledger) {instruction : Instruction}
    (member : instruction ∈ decoded)
    (tagged : ∀ tagging ∈ (instruction.reading image).taggings, image.Bears tagging)
    : instruction.Known image symbols := by
  refine ⟨tagged, fun branch => ?_, fun branch => ?_⟩
  · obtain ⟨symbol, placed, name⟩ := placed?_of_key (notes.named instruction member branch)
    rw [refines.nameAt?_eq, placed, Option.map_some, name]
  · obtain ⟨symbol, placed, -⟩ := placed?_of_key (notes.named instruction member branch)
    obtain ⟨inside, there, first⟩ := placed?_eq_some_iff.mp placed
    have source : instruction.address ∈ symbol.references := by
      rw [notes.referred symbol inside, if_pos first, there]
      refine List.mem_map_of_mem (List.mem_filter.mpr ⟨member, ?_⟩)
      rw [branch, decide_eq_true rfl, Bool.true_and]
    rw [SymbolTable.addReference, refines.findPlace?_eq, placed]
    simp only [List.contains_eq_mem, source, decide_true, if_true]

end Ledger

namespace Disassembly

/-- Steps over known instructions can be made again, by induction on them. -/
theorem Passes.replay {image : Image} {symbols : SymbolTable} {finish address stop : BitAddress}
    {state final : DecoderState} {decoded : List Instruction}
    (passes : Passes Sp0256.table finish address state decoded stop final)
    (bits : image.SameBits state.image)
    (known : ∀ instruction ∈ decoded, instruction.Known image symbols)
    : Passes Sp0256.table finish address ⟨image, symbols, state.mode⟩ decoded stop
        ⟨image, symbols, final.mode⟩ := by
  induction passes with
  | none => exact .none _ _
  | @next address state instruction rest stop final inside outcome _ ih =>
      obtain ⟨first, later⟩ := List.forall_mem_cons.mp known
      have again := decode_known bits outcome first
      refine .next inside (by rw [again]) ?_
      rw [again]
      exact ih (bits.trans (decode_sameBits ..).symm) later

/-- Steps with room below the top note their branches. -/
theorem Passes.notes {image : Image} {finish address stop : BitAddress}
    {state final : DecoderState} {decoded : List Instruction}
    (passes : Passes Sp0256.table finish address state decoded stop final)
    (room : finish.toNat ≤ 4294967296 - 136) (start : state.Notes image [] address)
    : final.Notes image decoded stop := by
  have noted := passes.accumulates (DecoderState.Notes image)
    (fun _ _ _ _ inside outcome held => by
      rw [BitAddress.lt_iff] at inside
      exact decode_notes held (by omega) outcome)
    start
  exact noted

/-- After steps the image bears the tags of all their instructions. -/
theorem Passes.bears {finish address stop : BitAddress} {state final : DecoderState}
    {decoded : List Instruction}
    (passes : Passes Sp0256.table finish address state decoded stop final)
    : ∀ instruction ∈ decoded, ∀ tagging ∈ (instruction.reading final.image).taggings,
        final.image.Bears tagging := by
  have all : ∀ instruction ∈ [] ++ decoded, ∀ tagging ∈ (instruction.reading final.image).taggings,
      final.image.Bears tagging := by
    refine passes.accumulates
      (fun before _ current => ∀ instruction ∈ before,
        ∀ tagging ∈ (instruction.reading current.image).taggings, current.image.Bears tagging)
      ?_ fun _ member => absurd member List.not_mem_nil
    intro before address current instruction _ outcome held known member
    have image := (decode_ok_cases outcome).1
    have same := (decode_sameBits Sp0256.table address current).ofImage Sp0256.table known.mode
      known.address
    rw [Instruction.reading, same, image]
    rcases List.mem_append.mp member with old | new
    · exact fun tagging tagged => (held known old tagging tagged).applyTaggings _
    · obtain rfl := List.mem_singleton.mp new
      rw [← decode_reading outcome]
      exact Image.bears_applyTaggings current.image (known.reading current.image).taggings
  exact all

/-- Steps that cannot go on are determined by where they start. Witness: induction on the steps of
one side, since a step has one outcome.
-/
theorem Passes.unique {table : FormatTable} {finish address stop otherStop : BitAddress}
    {state final otherFinal : DecoderState} {decoded other : List Instruction}
    (passes : Passes table finish address state decoded stop final)
    (ends : ¬ stop < finish)
    (others : Passes table finish address state other otherStop otherFinal)
    (otherEnds : ¬ otherStop < finish
      ∨ ∃ error, (decode table otherStop otherFinal).outcome = .error error)
    : other = decoded ∧ otherStop = stop ∧ otherFinal = final := by
  induction passes generalizing other with
  | none =>
      cases others with
      | none => exact ⟨rfl, rfl, rfl⟩
      | next inside _ _ => exact absurd inside ends
  | next inside outcome _ ih =>
      cases others with
      | none =>
          rcases otherEnds with outside | ⟨error, failed⟩
          · exact absurd inside outside
          · cases failed.symm.trans outcome
      | next _ otherOutcome otherLater =>
          obtain rfl := Except.ok.inj (otherOutcome.symm.trans outcome)
          obtain ⟨rfl, rfl, rfl⟩ := ih ends otherLater
          exact ⟨rfl, rfl, rfl⟩

/-- The first pass leaves alone what is not its own. -/
theorem decodeAll_keeps (disassembly : Disassembly)
    : disassembly.decodeAll.disassembly
      = { disassembly with
          image := disassembly.decodeAll.disassembly.image
          symbols := disassembly.decodeAll.disassembly.symbols
          instructions := disassembly.decodeAll.disassembly.instructions } := by
  unfold decodeAll
  dsimp only
  split <;> rfl

/-- Steps up to the end of the ROM that leave image and symbols as they are make a first pass that
does so, too.
-/
theorem decodeAll_eq_self {disassembly : Disassembly} {stop : BitAddress} {mode : Mode}
    (room : disassembly.image.finish.toNat ≤ 4294967296 - 136)
    (passes : Passes Sp0256.table disassembly.romFinish disassembly.origin disassembly.startState
      disassembly.instructions.toList stop ⟨disassembly.image, disassembly.symbols, mode⟩)
    (outside : ¬ stop < disassembly.romFinish)
    : disassembly.decodeAll.outcome = .ok disassembly.instructions.size
      ∧ disassembly.decodeAll.disassembly = disassembly := by
  obtain ⟨last, final, others, ends⟩ := disassembly.decodeAll_ends room
  have maximal : ¬ last < disassembly.romFinish
      ∨ ∃ error, (decode Sp0256.table last final).outcome = .error error := by
    rcases ends with ⟨outside, -⟩ | ⟨error, -, -, failed, -⟩
    · exact .inl outside
    · exact .inr ⟨error, failed⟩
  obtain ⟨same, rfl, rfl⟩ := passes.unique outside others maximal
  rcases ends with ⟨-, succeeded, image, symbols⟩ | ⟨error, inside, -⟩
  · have instructions := Array.toList_inj.mp same
    refine ⟨by rw [succeeded, instructions], ?_⟩
    rw [decodeAll_keeps, image, symbols, instructions]
  · exact absurd inside outside

end Disassembly

end SpeechRom
