import Mathlib.Data.List.Forall2
import SpeechRom.Proofs.Decode.Replay

/-! Two first passes side by side. What is decoded depends on the bits of the image and on the mode
register alone. Annotations and settings can change labels, tags and symbols, but no instruction.
-/

namespace SpeechRom

-----------------------------------------------------------------------------------------
-- Instructions that are read alike
-----------------------------------------------------------------------------------------

/-- Labels are shown by branches only. -/
theorem Operand.text_eq {operand : Operand} (other : ∀ target, operand ≠ .branch target)
    (left right : String)
    : operand.text left = operand.text right := by
  cases operand with
  | branch target => exact absurd rfl (other target)
  | absent | page | modeBits | repeatCount => rfl

/-- A reading without its tags. -/
def Reading.untagged (reading : Reading) : Reading := { reading with taggings := [] }

namespace Instruction

/-- Instructions of two images are read alike: they differ at most in the label that a branch shows,
and branches lead to the same target.
-/
structure ReadAlike (leftImage rightImage : Image) (left right : Instruction) : Prop where
  address : left.address = right.address
  length : left.length = right.length
  opcode : left.opcode = right.opcode
  mnemonic : left.mnemonic = right.mnemonic
  format : left.format = right.format
  mode : left.mode = right.mode
  operand : ¬ left.isBranch → left.operand = right.operand
  target : left.isBranch → left.target leftImage = right.target rightImage

namespace ReadAlike

variable {leftImage rightImage : Image} {left right : Instruction}

theorem isBranch (alike : left.ReadAlike leftImage rightImage right)
    : left.isBranch = right.isBranch := by
  simp only [Instruction.isBranch, isJump, isCall, alike.opcode]

theorem finish (alike : left.ReadAlike leftImage rightImage right)
    : left.finish = right.finish := by
  rw [Instruction.finish, Instruction.finish, alike.address, alike.length]

end ReadAlike

/-- Instructions of two disassemblies agree: they are read alike, and the labels of branches stand
for the same target.
-/
structure Agree (leftImage rightImage : Image) (leftSymbols rightSymbols : SymbolTable)
    (left right : Instruction) : Prop extends left.ReadAlike leftImage rightImage right where
  named : left.isBranch
    → leftSymbols.addressOf left.operand = .ok (left.target leftImage)
      ∧ rightSymbols.addressOf right.operand = .ok (left.target leftImage)

end Instruction

namespace Reading

variable {table : FormatTable} {leftImage rightImage : Image} {leftMode rightMode : Mode}
  {address : BitAddress}

/-- Readings that agree but for their tags give instructions that are read alike, whatever the
labels are.
-/
theorem instruction_readAlike
    (same : (ofImage table leftImage leftMode address).untagged
      = (ofImage table rightImage rightMode address).untagged)
    (leftLabel rightLabel : String)
    : ((ofImage table leftImage leftMode address).instruction leftLabel).ReadAlike leftImage
        rightImage ((ofImage table rightImage rightMode address).instruction rightLabel) := by
  obtain ⟨place, length, opcode, mnemonic, operand, format, mode, -, -⟩ := Reading.mk.inj same
  refine ⟨place, length, opcode, mnemonic, format, mode, fun other => ?_, fun branch => ?_⟩
  · rw [isBranch_instruction] at other
    have silent (target : BitAddress)
        : (ofImage table leftImage leftMode address).operand ≠ .branch target :=
      fun shown => other (ofImage_branch_iff.mp shown).1
    simp only [instruction, ← operand]
    exact Operand.text_eq silent _ _
  · rw [isBranch_instruction] at branch
    have left := ofImage_branch_iff.mpr ⟨branch, rfl⟩
    have right := ofImage_branch_iff.mpr ⟨opcode ▸ branch, rfl⟩
    rw [instruction_target, instruction_target]
    exact Operand.branch.inj (left.symm.trans (operand.trans right))

end Reading

/-- Steps whose readings agree but for their tags decode instructions that are read alike, and go on
in the same mode.
-/
theorem decode_readAlike {table : FormatTable} {leftImage rightImage : Image} {address : BitAddress}
    {left right : DecoderState} {first second : Instruction}
    (leftBits : left.image.SameBits leftImage) (rightBits : right.image.SameBits rightImage)
    (same : (Reading.ofImage table leftImage left.mode address).untagged
      = (Reading.ofImage table rightImage right.mode address).untagged)
    (leftOutcome : (decode table address left).outcome = .ok first)
    (rightOutcome : (decode table address right).outcome = .ok second)
    : first.ReadAlike leftImage rightImage second
      ∧ (decode table address left).state.mode = (decode table address right).state.mode := by
  obtain ⟨⟨leftLabel, rfl⟩, leftMode⟩ := decode_ok_reading leftOutcome
  obtain ⟨⟨rightLabel, rfl⟩, rightMode⟩ := decode_ok_reading rightOutcome
  rw [leftMode, rightMode, leftBits.ofImage, rightBits.ofImage]
  refine ⟨Reading.instruction_readAlike same leftLabel rightLabel, ?_⟩
  have exits : (Reading.ofImage table leftImage left.mode address).untagged.exitMode
      = (Reading.ofImage table rightImage right.mode address).untagged.exitMode := by
    rw [same]
  exact exits

-----------------------------------------------------------------------------------------
-- Names of targets
-----------------------------------------------------------------------------------------

/-- A ledger has the names that decoded branches show, each for the target of its branch. -/
def Ledger.Shows (image : Image) (decoded : List Instruction) (ledger : Ledger) : Prop :=
  ∀ instruction ∈ decoded, instruction.isBranch
    → (instruction.operand, instruction.target image, 0) ∈ ledger.symbols.map Symbol.key

/-- A name in a ledger stands for its address. -/
theorem SymbolTable.Refines.addressOf_eq {table : SymbolTable} {ledger : Ledger}
    (refines : table.Refines ledger) {name : String} {address : BitAddress} {sequence : UInt32}
    (key : (name, address, sequence) ∈ ledger.symbols.map Symbol.key)
    : table.addressOf name = .ok address := by
  obtain ⟨symbol, placed, rfl⟩ := Ledger.placed?_of_key key
  obtain ⟨inside, rfl, -⟩ := Ledger.placed?_eq_some_iff.mp placed
  have known : ledger.named? symbol.name = some symbol :=
    Ledger.named?_eq_some_iff.mpr ⟨inside, rfl⟩
  rw [SymbolTable.addressOf, refines.findName?_eq, known]

/-- A step adds the name of its branch, and names that are there stay. -/
theorem decode_shows {table : FormatTable} {image : Image} {decoded : List Instruction}
    {address : BitAddress} {state : DecoderState} {instruction : Instruction} {ledger : Ledger}
    (bits : state.image.SameBits image) (refines : state.symbols.Refines ledger)
    (shows : ledger.Shows image decoded)
    (outcome : (decode table address state).outcome = .ok instruction)
    : ∃ later,
        (decode table address state).state.symbols.Refines later
        ∧ later.Shows image (decoded ++ [instruction]) := by
  rcases decode_ledger refines outcome with ⟨branch, letter, key, noted⟩ | ⟨other, same⟩
  · rw [bits.target] at key noted
    have named := (ledger.keys_serve (.label (instruction.target image) (some letter) 0)).subset
    have kept := ((ledger.serve (.label (instruction.target image) (some letter) 0)).1.keys_serve
      (.addReference (instruction.target image) instruction.address)).subset
    refine ⟨_, noted, fun known member isBranch => ?_⟩
    rcases List.mem_append.mp member with old | new
    · exact kept (named (shows known old isBranch))
    · obtain rfl := List.mem_singleton.mp new
      exact kept key
  · refine ⟨ledger, same, fun known member isBranch => ?_⟩
    rcases List.mem_append.mp member with old | new
    · exact shows known old isBranch
    · obtain rfl := List.mem_singleton.mp new
      exact absurd isBranch other

-----------------------------------------------------------------------------------------
-- Two passes
-----------------------------------------------------------------------------------------

namespace Disassembly

/-- After steps, every branch shows a name of its target, by induction on them. -/
theorem Passes.addressOf_operand {table : FormatTable} {finish address stop : BitAddress}
    {state final : DecoderState} {decoded : List Instruction} {ledger : Ledger}
    (passes : Passes table finish address state decoded stop final)
    (refines : state.symbols.Refines ledger)
    : ∀ instruction ∈ decoded, instruction.isBranch
        → final.symbols.addressOf instruction.operand
          = .ok (instruction.target final.image) := by
  obtain ⟨bits, later, lasts, shows⟩
      : final.image.SameBits state.image
        ∧ ∃ later, final.symbols.Refines later ∧ later.Shows state.image ([] ++ decoded) := by
    refine passes.accumulates
      (fun before _ current => current.image.SameBits state.image
        ∧ ∃ ledger, current.symbols.Refines ledger ∧ ledger.Shows state.image before)
      ?_ ⟨.refl _, ledger, refines, fun _ member => absurd member List.not_mem_nil⟩
    rintro before address current instruction - outcome ⟨bits, ledger, refines, shows⟩
    exact ⟨(decode_sameBits ..).trans bits, decode_shows bits refines shows outcome⟩
  intro instruction member branch
  rw [bits.target]
  exact lasts.addressOf_eq (shows instruction member branch)

/-- Steps up to the same end over images with the same bits decode instructions that are read alike,
one by one. Witness: induction on the steps of one side, since in the same mode at the same address
both sides read the same.
-/
theorem Passes.readAlike {table : FormatTable} {leftImage rightImage : Image}
    {finish address leftStop rightStop : BitAddress}
    {left right leftFinal rightFinal : DecoderState} {leftDecoded rightDecoded : List Instruction}
    (bits : leftImage.SameBits rightImage)
    (leftPasses : Passes table finish address left leftDecoded leftStop leftFinal)
    (rightPasses : Passes table finish address right rightDecoded rightStop rightFinal)
    (leftEnds : ¬ leftStop < finish) (rightEnds : ¬ rightStop < finish)
    (leftBits : left.image.SameBits leftImage) (rightBits : right.image.SameBits rightImage)
    (modes : left.mode = right.mode)
    : List.Forall₂ (Instruction.ReadAlike leftImage rightImage) leftDecoded rightDecoded := by
  induction leftPasses generalizing right rightDecoded with
  | none =>
      cases rightPasses with
      | none => exact .nil
      | next inside => exact absurd inside leftEnds
  | @next address left first rest _ _ inside outcome later ih =>
      cases rightPasses with
      | none => exact absurd inside rightEnds
      | @next _ _ second others _ _ _ otherOutcome otherLater =>
          have same : (Reading.ofImage table leftImage left.mode address).untagged
              = (Reading.ofImage table rightImage right.mode address).untagged := by
            rw [bits.ofImage, modes]
          obtain ⟨alike, nextModes⟩ :=
            decode_readAlike leftBits rightBits same outcome otherOutcome
          rw [← alike.finish] at otherLater
          exact .cons alike (ih otherLater leftEnds ((decode_sameBits ..).trans leftBits)
            ((decode_sameBits ..).trans rightBits) nextModes)

/-- Instructions that are read alike agree, when branches on both sides show names of their targets.
-/
theorem agree_of_readAlike {leftImage rightImage : Image} {leftSymbols rightSymbols : SymbolTable}
    {leftDecoded rightDecoded : List Instruction}
    (alike : List.Forall₂ (Instruction.ReadAlike leftImage rightImage) leftDecoded rightDecoded)
    (leftNamed : ∀ instruction ∈ leftDecoded, instruction.isBranch
      → leftSymbols.addressOf instruction.operand = .ok (instruction.target leftImage))
    (rightNamed : ∀ instruction ∈ rightDecoded, instruction.isBranch
      → rightSymbols.addressOf instruction.operand = .ok (instruction.target rightImage))
    : List.Forall₂ (Instruction.Agree leftImage rightImage leftSymbols rightSymbols) leftDecoded
        rightDecoded := by
  obtain ⟨lengths, pairs⟩ := List.forall₂_iff_zip.mp alike
  refine List.forall₂_iff_zip.mpr ⟨lengths, fun {left right} pair => ?_⟩
  obtain ⟨leftMember, rightMember⟩ := List.of_mem_zip pair
  refine ⟨pairs pair, fun branch => ⟨leftNamed left leftMember branch, ?_⟩⟩
  rw [(pairs pair).target branch]
  exact rightNamed right rightMember ((pairs pair).isBranch ▸ branch)

/-- Passes over set-ups with the same bits agree when they have come to their ends. -/
theorem Passes.agree {left right : Disassembly} {leftStop rightStop : BitAddress}
    {leftFinal rightFinal : DecoderState} {leftDecoded rightDecoded : List Instruction}
    {leftLedger rightLedger : Ledger}
    (leftRefines : left.symbols.Refines leftLedger)
    (rightRefines : right.symbols.Refines rightLedger)
    (bits : left.image.SameBits right.image)
    (leftPasses : Passes Sp0256.table left.romFinish left.origin left.startState leftDecoded
      leftStop leftFinal)
    (rightPasses : Passes Sp0256.table right.romFinish right.origin right.startState rightDecoded
      rightStop rightFinal)
    (leftEnds : ¬ leftStop < left.romFinish) (rightEnds : ¬ rightStop < right.romFinish)
    : List.Forall₂
        (Instruction.Agree leftFinal.image rightFinal.image leftFinal.symbols rightFinal.symbols)
        leftDecoded rightDecoded := by
  have finish : right.romFinish = left.romFinish := by
    rw [romFinish, romFinish, bits.origin, bits.sizeBits]
  have origin : right.origin = left.origin := bits.origin.symm
  have modes : left.startState.mode = right.startState.mode := by
    rw [startState, startState, bits.origin]
  refine agree_of_readAlike ?_ (leftPasses.addressOf_operand leftRefines)
    (rightPasses.addressOf_operand rightRefines)
  rw [finish, origin] at rightPasses
  rw [finish] at rightEnds
  have finalBits := (leftPasses.sameBits.trans bits).trans rightPasses.sameBits.symm
  exact leftPasses.readAlike finalBits rightPasses leftEnds rightEnds leftPasses.sameBits.symm
    rightPasses.sameBits.symm modes

/-- Set-ups of a ROM at one place differ at most in their tags and symbols. -/
theorem setup_sameBits {rom : Bytes} {leftAnnotations rightAnnotations : Option Annotations}
    {leftSettings rightSettings : Settings} {left right : Disassembly}
    (leftAccepted : (setup rom leftAnnotations leftSettings).outcome = .ok left)
    (rightAccepted : (setup rom rightAnnotations rightSettings).outcome = .ok right)
    (origins : left.origin = right.origin)
    : left.image.SameBits right.image := by
  obtain ⟨leftBlank, leftCreated, -, leftBits⟩ := setup_bits leftAccepted
  obtain ⟨rightBlank, rightCreated, -, rightBits⟩ := setup_bits rightAccepted
  rw [origins] at leftCreated
  obtain rfl := Except.ok.inj (leftCreated.symm.trans rightCreated)
  exact leftBits.trans rightBits.symm

/-- Annotations and settings do not change what is decoded. Set-ups of a ROM at one place whose
first passes succeed have as many instructions, and each agrees with its counterpart in everything
but the label that a branch shows, where both labels stand for the same address. This is so for the
passes as they are bounded by the size of the ROM, and for any that have come to their ends.
-/
theorem decodeAll_ignores_annotations {rom : Bytes}
    {leftAnnotations rightAnnotations : Option Annotations}
    {leftSettings rightSettings : Settings} {left right : Disassembly}
    (leftAccepted : (setup rom leftAnnotations leftSettings).outcome = .ok left)
    (rightAccepted : (setup rom rightAnnotations rightSettings).outcome = .ok right)
    (origins : left.origin = right.origin)
    : (∀ leftCount rightCount,
        left.decodeAll.outcome = .ok leftCount
        → right.decodeAll.outcome = .ok rightCount
        → let leftDecoded := left.decodeAll.disassembly
          let rightDecoded := right.decodeAll.disassembly
          leftCount = rightCount
          ∧ List.Forall₂
              (Instruction.Agree leftDecoded.image rightDecoded.image leftDecoded.symbols
                rightDecoded.symbols)
              leftDecoded.instructions.toList rightDecoded.instructions.toList)
      ∧ ∀ leftDecoded leftStop leftFinal rightDecoded rightStop rightFinal,
          Passes Sp0256.table left.romFinish left.origin left.startState leftDecoded leftStop
            leftFinal
          → ¬ leftStop < left.romFinish
          → Passes Sp0256.table right.romFinish right.origin right.startState rightDecoded rightStop
              rightFinal
          → ¬ rightStop < right.romFinish
          → List.Forall₂
              (Instruction.Agree leftFinal.image rightFinal.image leftFinal.symbols
                rightFinal.symbols)
              leftDecoded rightDecoded := by
  have bits := setup_sameBits leftAccepted rightAccepted origins
  obtain ⟨_, leftRefines, -⟩ := (setup_notes leftAccepted).noted
  obtain ⟨_, rightRefines, -⟩ := (setup_notes rightAccepted).noted
  constructor
  · intro leftCount rightCount leftSucceeded rightSucceeded leftDecoded rightDecoded
    obtain ⟨_, _, leftPasses, leftEnds, leftImage, leftSymbols, leftSize⟩ :=
      decodeAll_ok leftSucceeded
    obtain ⟨_, _, rightPasses, rightEnds, rightImage, rightSymbols, rightSize⟩ :=
      decodeAll_ok rightSucceeded
    have agree := leftPasses.agree leftRefines rightRefines bits rightPasses leftEnds rightEnds
    rw [← leftImage, ← rightImage, ← leftSymbols, ← rightSymbols] at agree
    exact ⟨leftSize.trans (agree.length_eq.trans rightSize.symm), agree⟩
  · intro _ _ _ _ _ _ leftPasses leftEnds rightPasses rightEnds
    exact leftPasses.agree leftRefines rightRefines bits rightPasses leftEnds rightEnds

/-- A call and a jump to byte `$1004`, once bare and once with annotations that name the target and
take the call for data: the labels differ, and the instructions agree.
-/
theorem decodeAll_ignores_annotations_renamed
    : ∃ bare annotated,
        (setup #[0x0B, 0x04, 0x07, 0x04] none {}).outcome = .ok bare
        ∧ (setup #[0x0B, 0x04, 0x07, 0x04]
            (some [.origin 0x1000, .symbol "ENTRY" 0x1004, .data ⟨0x1000, 0x1001⟩]) {}).outcome
          = .ok annotated
        ∧ bare.origin = annotated.origin
        ∧ let bareDecoded := bare.decodeAll.disassembly
          let decoded := annotated.decodeAll.disassembly
          bareDecoded.instructions.toList.map (·.operand) = ["G_1004", "G_1004"]
          ∧ decoded.instructions.toList.map (·.operand) = ["ENTRY", "ENTRY"]
          ∧ List.Forall₂
              (Instruction.Agree bareDecoded.image decoded.image bareDecoded.symbols
                decoded.symbols)
              bareDecoded.instructions.toList decoded.instructions.toList := by
  obtain ⟨bare, bareAccepted, bareCount, bareShown, bareOrigin⟩
      : ∃ bare,
          (setup #[0x0B, 0x04, 0x07, 0x04] none {}).outcome = .ok bare
          ∧ bare.decodeAll.outcome.toOption = some 2
          ∧ bare.decodeAll.disassembly.instructions.toList.map (·.operand) = ["G_1004", "G_1004"]
          ∧ bare.origin = ⟨0x8000⟩ :=
    ⟨_, rfl, by decide +kernel, by decide +kernel, by decide⟩
  obtain ⟨annotated, accepted, count, shown, origin⟩
      : ∃ annotated,
          (setup #[0x0B, 0x04, 0x07, 0x04]
            (some [.origin 0x1000, .symbol "ENTRY" 0x1004, .data ⟨0x1000, 0x1001⟩]) {}).outcome
            = .ok annotated
          ∧ annotated.decodeAll.outcome.toOption = some 2
          ∧ annotated.decodeAll.disassembly.instructions.toList.map (·.operand)
            = ["ENTRY", "ENTRY"]
          ∧ annotated.origin = ⟨0x8000⟩ :=
    ⟨_, rfl, by decide +kernel, by decide +kernel, by decide⟩
  have origins : bare.origin = annotated.origin := bareOrigin.trans origin.symm
  obtain ⟨bounded, -⟩ := decodeAll_ignores_annotations bareAccepted accepted origins
  exact ⟨bare, annotated, bareAccepted, accepted, origins, bareShown, shown,
    (bounded 2 2 (outcome_of_count bareCount) (outcome_of_count count)).2⟩

end Disassembly

end SpeechRom
