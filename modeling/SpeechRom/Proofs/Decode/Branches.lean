import SpeechRom.Proofs.Decode.Targets
import SpeechRom.Proofs.Decode.Tiling
import SpeechRom.Proofs.Symbol.Refinement

/-! Branches and the symbols of their targets. A branch shows the primary name of its target, and
that symbol keeps the addresses of all branches that lead there and of nothing else.
-/

namespace SpeechRom

-----------------------------------------------------------------------------------------
-- Targets
-----------------------------------------------------------------------------------------

namespace Instruction

/-- Whether the instruction goes on elsewhere for good. -/
def isJump (instruction : Instruction) : Bool := instruction.opcode.val = 7

/-- Whether the instruction goes on elsewhere and comes back. -/
def isCall (instruction : Instruction) : Bool := instruction.opcode.val = 11

def isBranch (instruction : Instruction) : Bool := instruction.isJump || instruction.isCall

/-- The target of a branch. Its byte address has the page in which the instruction was met, then
the first four bits of the instruction, and then the eight bits after its opcode.
-/
def target (image : Image) (instruction : Instruction) : BitAddress :=
  BitAddress.ofByte
    (((instruction.mode.bits >>> 4).toUInt32 <<< 12)
      ||| (image.readForward instruction.address 4 <<< 8)
      ||| image.readForward (instruction.address + (8 : UInt32)) 8)

/-- The addresses of the branches that lead to a target. -/
def sources (image : Image) (instructions : List Instruction) (target : BitAddress)
    : List BitAddress :=
  (instructions.filter fun instruction =>
    instruction.isBranch && instruction.target image = target).map (·.address)

theorem sources_concat (image : Image) (instructions : List Instruction)
    (instruction : Instruction) (target : BitAddress)
    : sources image (instructions ++ [instruction]) target
      = if instruction.isBranch ∧ instruction.target image = target then
          sources image instructions target ++ [instruction.address]
        else sources image instructions target := by
  by_cases leads : instruction.isBranch ∧ instruction.target image = target
  · simp [sources, leads]
  · have apart : ¬ (instruction.isBranch && decide (instruction.target image = target)) := by
      simpa using leads
    simp [sources, leads, apart]

/-- Branches are met in the order of their addresses. -/
theorem sources_rising {instructions : List Instruction}
    (rising : instructions.Pairwise (·.address < ·.address)) (image : Image) (target : BitAddress)
    : (sources image instructions target).Pairwise (· < ·) :=
  List.pairwise_map.mpr (rising.filter _)

theorem mem_sources {image : Image} {instructions : List Instruction} {target source : BitAddress}
    (member : source ∈ sources image instructions target)
    : ∃ instruction ∈ instructions,
        instruction.isBranch ∧ instruction.target image = target
        ∧ instruction.address = source := by
  obtain ⟨instruction, kept, rfl⟩ := List.mem_map.mp member
  obtain ⟨inside, leads⟩ := List.mem_filter.mp kept
  rw [Bool.and_eq_true, decide_eq_true_eq] at leads
  exact ⟨instruction, inside, leads.1, leads.2, rfl⟩

end Instruction

namespace Image.SameBits

variable {left right : Image}

theorem target (same : left.SameBits right) (instruction : Instruction)
    : instruction.target left = instruction.target right := by
  rw [Instruction.target, Instruction.target, same.readForward, same.readForward]

theorem sources (same : left.SameBits right) (instructions : List Instruction)
    (target : BitAddress)
    : Instruction.sources left instructions target
      = Instruction.sources right instructions target := by
  simp only [Instruction.sources, same.target]

end Image.SameBits

theorem applyTaggings_sameBits (image : Image) (taggings : List Tagging)
    : (applyTaggings image taggings).SameBits image := by
  induction taggings generalizing image with
  | nil => exact .refl image
  | cons tagging rest ih => exact (ih _).trans (Image.addTags_sameBits ..)

namespace Reading

theorem taggedImage_sameBits (reading : Reading) (image : Image)
    : (reading.taggedImage image).SameBits image :=
  applyTaggings_sameBits image reading.taggings

variable (table : FormatTable) (image : Image) (mode : Mode) (address : BitAddress)

theorem ofImage_entryMode : (ofImage table image mode address).entryMode = mode := by
  unfold ofImage
  dsimp only
  split
  · split <;> rfl
  all_goals rfl

theorem isBranch_instruction (reading : Reading) (label : String)
    : (reading.instruction label).isBranch ↔ reading.opcode = 7 ∨ reading.opcode = 11 := by
  rw [Instruction.isBranch, Bool.or_eq_true]
  exact or_congr (decide_eq_true_iff.trans (Fin.ext_iff (b := 7)).symm)
    (decide_eq_true_iff.trans (Fin.ext_iff (b := 11)).symm)

/-- The upper half of the mode, moved down and up again, is the page as it stands. -/
theorem page_eq_shiftRight (mode : Mode)
    : (mode.bits >>> 4).toUInt32 <<< 12 = mode.page.toUInt32 <<< 8 := by
  have all : ∀ bits : BitVec 8,
      (UInt8.ofBitVec bits >>> 4).toUInt32 <<< 12
        = (UInt8.ofBitVec bits &&& 0xF0).toUInt32 <<< 8 := by
    decide +kernel
  exact all mode.bits.toBitVec

theorem instruction_target (label : String)
    : ((ofImage table image mode address).instruction label).target image
      = branchTarget image mode address
          (FormatTable.nibble (image.readForward address 4)) := by
  have small := readForward_four_lt image address
  have immediate
      : UInt32.ofNat (FormatTable.nibble (image.readForward address 4)).val
        = image.readForward address 4 := by
    refine UInt32.toNat.inj ?_
    rw [FormatTable.nibble, Fin.val_ofNat, Nat.mod_eq_of_lt small, UInt32.ofNat_toNat]
  rw [Instruction.target, branchTarget, immediate]
  simp only [instruction, ofImage_address, ofImage_entryMode, page_eq_shiftRight]

end Reading

/-- A step changes nothing but tags of the image, whether it succeeds or not. -/
theorem decode_sameBits (table : FormatTable) (address : BitAddress) (state : DecoderState)
    : (decode table address state).state.image.SameBits state.image := by
  rcases decode_cases table address state with ⟨_, _, -, -, step⟩ | ⟨_, _, -, -, step⟩ | ⟨-, step⟩
  all_goals
    rw [step]
    exact Reading.taggedImage_sameBits ..

theorem Disassembly.Passes.sameBits {table : FormatTable} {finish address stop : BitAddress}
    {state final : DecoderState} {decoded : List Instruction}
    (passes : Passes table finish address state decoded stop final)
    : final.image.SameBits state.image :=
  passes.preserves (fun address current same => (decode_sameBits table address current).trans same)
    (.refl state.image)

/-- What a step does to the symbols: a branch asks for the name of its target, shows it and becomes
a reference to it, and any other instruction does nothing.
-/
theorem decode_symbols {table : FormatTable} {address : BitAddress} {state : DecoderState}
    {instruction : Instruction}
    (outcome : (decode table address state).outcome = .ok instruction)
    : let target := instruction.target state.image
      let after := (decode table address state).state.symbols
      (instruction.isBranch
        ∧ ∃ letter labelling,
            state.symbols.label target (some letter) 0 = .ok labelling
            ∧ instruction.operand = labelling.name.getD ""
            ∧ after = (labelling.table.addReference target instruction.address).1)
      ∨ (¬ instruction.isBranch ∧ after = state.symbols) := by
  have place := (decode_ok outcome).1
  rcases decode_ok_cases outcome with
    ⟨-, ⟨target, labelling, operand, labelled, rfl, symbols⟩ | ⟨operand, rfl, symbols⟩⟩
  · obtain ⟨opcode, rfl⟩ := Reading.ofImage_branch_iff.mp operand
    have branch := (Reading.isBranch_instruction _ (labelling.name.getD "")).mpr opcode
    have leads := Reading.instruction_target table state.image state.mode address
      (labelling.name.getD "")
    have shown : ((Reading.ofImage table state.image state.mode address).instruction
        (labelling.name.getD "")).operand = labelling.name.getD "" := by
      rw [Reading.instruction, operand]
      rfl
    rw [← leads] at labelled symbols
    rw [place]
    exact .inl ⟨branch, _, labelling, labelled, shown, symbols⟩
  · refine .inr ⟨fun branch => ?_, symbols⟩
    have opcode := (Reading.isBranch_instruction _ "").mp branch
    exact operand _ (Reading.ofImage_branch_iff.mpr ⟨opcode, rfl⟩)

-----------------------------------------------------------------------------------------
-- References
-----------------------------------------------------------------------------------------

namespace Ledger

/-- What a ledger knows of decoded branches: their targets have the names that they show, and the
first symbol of an address has the branches that lead there as its references. Other symbols have
none.
-/
structure Notes (image : Image) (decoded : List Instruction) (ledger : Ledger) : Prop where
  named : ∀ instruction ∈ decoded, instruction.isBranch
    → (instruction.operand, instruction.target image, 0) ∈ ledger.symbols.map Symbol.key
  referred : ∀ symbol ∈ ledger.symbols,
    symbol.references
    = if symbol.sequence = 0 then Instruction.sources image decoded symbol.address else []

theorem Notes.of_empty (image : Image) : Ledger.empty.Notes image [] :=
  ⟨fun _ member => absurd member List.not_mem_nil, fun _ member => absurd member List.not_mem_nil⟩

namespace Notes

variable {image : Image} {decoded : List Instruction} {ledger : Ledger}

/-- No branch leads to an address without a symbol. -/
theorem sources_eq_nil (notes : ledger.Notes image decoded) {address : BitAddress}
    (nameless : ledger.placed? address 0 = none)
    : Instruction.sources image decoded address = [] := by
  refine List.eq_nil_iff_forall_not_mem.mpr fun source member => ?_
  obtain ⟨instruction, inside, branch, rfl, -⟩ := Instruction.mem_sources member
  obtain ⟨symbol, found, -⟩ := placed?_of_key (notes.named instruction inside branch)
  cases nameless.symm.trans found

/-- A definition leaves references alone, and a new symbol starts without any. -/
theorem define (notes : ledger.Notes image decoded) (name : String) (address : BitAddress)
    : (ledger.define name address).1.Notes image decoded := by
  have kept := (ledger.keys_define name address).subset
  refine ⟨fun instruction member branch => kept (notes.named instruction member branch), ?_⟩
  rcases ledger.define_cases name address with same | ⟨free, room, added⟩
  · rw [same]
    exact notes.referred
  · rw [added]
    intro symbol member
    rcases List.mem_append.mp member with old | new
    · exact notes.referred symbol old
    · obtain rfl := List.mem_singleton.mp new
      split
      · rename_i first
        exact (notes.sources_eq_nil (nameless_of_fresh room first)).symm
      · rfl

theorem label (notes : ledger.Notes image decoded) (target : BitAddress) (letter : Char)
    : (ledger.serve (.label target (some letter) 0)).1.Notes image decoded := by
  cases placed : ledger.placed? target 0 with
  | some symbol =>
      simp only [serve, Ledger.label, placed]
      exact notes
  | none =>
      rw [serve_label_made placed]
      exact notes.define _ target

/-- An instruction that is no branch is no reference. -/
theorem other (notes : ledger.Notes image decoded) {instruction : Instruction}
    (noBranch : ¬ instruction.isBranch)
    : ledger.Notes image (decoded ++ [instruction]) := by
  refine ⟨fun known member branch => ?_, fun symbol member => ?_⟩
  · rcases List.mem_append.mp member with old | new
    · exact notes.named known old branch
    · obtain rfl := List.mem_singleton.mp new
      exact absurd branch noBranch
  · have same : Instruction.sources image (decoded ++ [instruction]) symbol.address
        = Instruction.sources image decoded symbol.address := by
      rw [Instruction.sources_concat, if_neg fun leads => noBranch leads.1]
    rw [same]
    exact notes.referred symbol member

/-- A branch becomes the last reference of the first symbol of its target. Witness: it is not among
the earlier references, since no earlier instruction stands at its address.
-/
theorem branch (notes : ledger.Notes image decoded) {instruction : Instruction}
    (isBranch : instruction.isBranch)
    (shown : (instruction.operand, instruction.target image, 0)
      ∈ ledger.symbols.map Symbol.key)
    (fresh : ∀ known ∈ decoded, known.address ≠ instruction.address)
    : (ledger.addReference (instruction.target image) instruction.address).1.Notes image
        (decoded ++ [instruction]) := by
  have kept := (ledger.keys_serve
    (.addReference (instruction.target image) instruction.address)).subset
  refine ⟨fun known member branch => ?_, ?_⟩
  · rcases List.mem_append.mp member with old | new
    · exact kept (notes.named known old branch)
    · obtain rfl := List.mem_singleton.mp new
      exact kept shown
  · obtain ⟨symbol, placed, -⟩ := placed?_of_key shown
    obtain ⟨inside, here, first⟩ := placed?_eq_some_iff.mp placed
    have references := notes.referred symbol inside
    rw [if_pos first, here] at references
    have news : instruction.address ∉ symbol.references := by
      rw [references]
      intro member
      obtain ⟨known, old, -, -, same⟩ := Instruction.mem_sources member
      exact fresh known old same
    simp only [addReference, placed, if_neg news]
    intro changed member
    obtain ⟨old, oldInside, rfl⟩ := List.mem_map.mp member
    by_cases same : old.name = symbol.name
    · obtain rfl := List.inj_on_of_nodup_map ledger.distinct oldInside inside same
      have grown : Instruction.sources image (decoded ++ [instruction]) old.address
          = Instruction.sources image decoded old.address ++ [instruction.address] := by
        rw [Instruction.sources_concat, if_pos ⟨isBranch, here.symm⟩]
      rw [if_pos rfl]
      change old.references ++ [instruction.address]
        = if old.sequence = 0 then
            Instruction.sources image (decoded ++ [instruction]) old.address
          else []
      rw [if_pos first, grown, references, here]
    · rw [if_neg same, notes.referred old oldInside]
      by_cases primary : old.sequence = 0
      · have elsewhere : instruction.target image ≠ old.address := by
          intro there
          have found := placed?_eq_some_iff.mpr ⟨oldInside, there.symm, primary⟩
          obtain rfl := Option.some.inj (placed.symm.trans found)
          exact same rfl
        rw [if_pos primary, if_pos primary, Instruction.sources_concat,
          if_neg fun leads => elsewhere leads.2]
      · rw [if_neg primary, if_neg primary]

end Notes

end Ledger

-----------------------------------------------------------------------------------------
-- First pass
-----------------------------------------------------------------------------------------

/-- What the first pass has done before it comes to an address: nothing to the bits of the image,
and all instructions so far stand in order below the address, with their branches noted.
-/
structure DecoderState.Notes (image : Image) (decoded : List Instruction) (address : BitAddress)
    (state : DecoderState) : Prop where
  bits : state.image.SameBits image
  rising : decoded.Pairwise (·.address < ·.address)
  below : ∀ instruction ∈ decoded, instruction.address < address
  noted : ∃ ledger, state.symbols.Refines ledger ∧ ledger.Notes image decoded

/-- What a step does to the ledger of the symbols: the target of a branch is asked for its name,
which the branch shows, and the branch becomes a reference to it.
-/
theorem decode_ledger {table : FormatTable} {address : BitAddress} {state : DecoderState}
    {instruction : Instruction} {ledger : Ledger} (refines : state.symbols.Refines ledger)
    (outcome : (decode table address state).outcome = .ok instruction)
    : let target := instruction.target state.image
      let after := (decode table address state).state.symbols
      (instruction.isBranch
        ∧ ∃ letter,
            let labelled := (ledger.serve (.label target (some letter) 0)).1
            (instruction.operand, target, 0) ∈ labelled.symbols.map Symbol.key
            ∧ after.Refines (labelled.addReference target instruction.address).1)
      ∨ (¬ instruction.isBranch ∧ after.Refines ledger) := by
  rcases decode_symbols outcome with
    ⟨branch, letter, labelling, labelled, shown, symbols⟩ | ⟨other, symbols⟩
  · have follows := refines.serve_label (instruction.target state.image) (some letter) 0
    have served : state.symbols.serve (.label (instruction.target state.image) (some letter) 0)
        = (labelling.table, .ok (.name labelling.name)) := by
      simp only [SymbolTable.serve, labelled]
    rw [served] at follows
    have key := Ledger.key_of_label follows.answer.symm
    rw [← shown] at key
    have noted := (follows.refines.serve_addReference (instruction.target state.image)
      instruction.address).refines
    rw [symbols]
    exact .inl ⟨branch, letter, key, noted⟩
  · rw [symbols]
    exact .inr ⟨other, refines⟩

/-- A step notes its instruction. Witness: the target of a branch has a name before the reference is
noted, and the name is what the branch shows.
-/
theorem decode_noted {image : Image} {decoded : List Instruction} {address : BitAddress}
    {state : DecoderState} {instruction : Instruction} {ledger : Ledger}
    (bits : state.image.SameBits image)
    (fresh : ∀ known ∈ decoded, known.address ≠ address)
    (refines : state.symbols.Refines ledger) (notes : ledger.Notes image decoded)
    (outcome : (decode Sp0256.table address state).outcome = .ok instruction)
    : ∃ later,
        (decode Sp0256.table address state).state.symbols.Refines later
        ∧ later.Notes image (decoded ++ [instruction]) := by
  have place := (decode_ok outcome).1
  rcases decode_ledger refines outcome with ⟨branch, letter, key, noted⟩ | ⟨other, same⟩
  · rw [bits.target] at key noted
    have named := notes.label (instruction.target image) letter
    exact ⟨_, noted, named.branch branch key (place ▸ fresh)⟩
  · exact ⟨ledger, same, notes.other other⟩

theorem decode_notes {image : Image} {decoded : List Instruction} {address : BitAddress}
    {state : DecoderState} {instruction : Instruction}
    (notes : state.Notes image decoded address) (room : address.toNat + 136 < 4294967296)
    (outcome : (decode Sp0256.table address state).outcome = .ok instruction)
    : (decode Sp0256.table address state).state.Notes image (decoded ++ [instruction])
        instruction.finish := by
  have place := (decode_ok outcome).1
  obtain ⟨long, ends⟩ := Disassembly.decode_finish outcome room
  have onward : address < instruction.finish := by
    rw [BitAddress.lt_iff]
    omega
  have fresh (known : Instruction) (member : known ∈ decoded) : known.address ≠ address := by
    intro same
    have below := BitAddress.lt_iff.mp (notes.below known member)
    rw [same] at below
    omega
  obtain ⟨ledger, refines, noted⟩ := notes.noted
  refine ⟨?_, ?_, ?_, decode_noted notes.bits fresh refines noted outcome⟩
  · exact (decode_sameBits ..).trans notes.bits
  · refine List.pairwise_append.mpr ⟨notes.rising, List.pairwise_singleton _ _, ?_⟩
    intro known member last lastMember
    obtain rfl := List.mem_singleton.mp lastMember
    exact place ▸ notes.below known member
  · intro known member
    rcases List.mem_append.mp member with old | new
    · have below := notes.below known old
      rw [BitAddress.lt_iff] at below onward ⊢
      omega
    · obtain rfl := List.mem_singleton.mp new
      exact place ▸ onward

/-- What definitions preserve holds after the symbols of annotations have been defined, by induction
on the annotations.
-/
theorem Annotations.defineSymbols_preserves {holds : Ledger → Prop}
    (step : ∀ ledger name address, holds ledger → holds (ledger.define name address).1)
    {table : SymbolTable} {ledger : Ledger} (refines : table.Refines ledger) (start : holds ledger)
    (annotations : Annotations)
    : ∃ later, (annotations.defineSymbols table).table.Refines later ∧ holds later := by
  induction annotations generalizing table ledger with
  | nil => exact ⟨ledger, refines, start⟩
  | cons annotation rest ih =>
      cases annotation with
      | symbol name byte =>
          rw [defineSymbols]
          cases defined : table.define name (BitAddress.ofByte byte) with
          | error => exact ⟨ledger, refines, start⟩
          | ok definition =>
              exact ih (refines.of_define defined)
                (step ledger name (BitAddress.ofByte byte) start)
      | code | data | operand | origin => exact ih refines start

/-- Symbols of annotations are noted without references. -/
theorem Annotations.defineSymbols_notes {image : Image} {table : SymbolTable} {ledger : Ledger}
    (refines : table.Refines ledger) (notes : ledger.Notes image []) (annotations : Annotations)
    : ∃ later,
        (annotations.defineSymbols table).table.Refines later ∧ later.Notes image [] :=
  annotations.defineSymbols_preserves (fun _ name address held => held.define name address)
    refines notes

namespace Disassembly

theorem setup_notes {rom : Bytes} {annotations : Option Annotations} {settings : Settings}
    {disassembly : Disassembly}
    (accepted : (setup rom annotations settings).outcome = .ok disassembly)
    : disassembly.startState.Notes disassembly.image [] disassembly.origin := by
  refine ⟨.refl _, .nil, fun _ member => absurd member List.not_mem_nil, ?_⟩
  obtain ⟨image, -, -, defined⟩ := setup_ok accepted
  change ∃ ledger, disassembly.symbols.Refines ledger ∧ _
  rw [defined]
  exact Annotations.defineSymbols_notes (.of_empty settings.commentChar) (.of_empty _) _

/-- After a first pass that succeeds, each branch shows the first name of its target, and that name
stands for the target. The first symbol of an address has the addresses of the branches that lead
there as its references, in rising order, and other symbols have none.
-/
theorem decodeAll_notes_branches {rom : Bytes} {annotations : Option Annotations}
    {settings : Settings} {disassembly : Disassembly} {count : Nat}
    (accepted : (setup rom annotations settings).outcome = .ok disassembly)
    (room : disassembly.image.finish.toNat ≤ 4294967296 - 136)
    (succeeded : disassembly.decodeAll.outcome = .ok count)
    : let image := disassembly.decodeAll.disassembly.image
      let symbols := disassembly.decodeAll.disassembly.symbols
      let instructions := disassembly.decodeAll.disassembly.instructions.toList
      (∀ instruction ∈ instructions, instruction.isBranch
        → symbols.nameAt? (instruction.target image) 0 = some instruction.operand
          ∧ symbols.addressOf instruction.operand = .ok (instruction.target image))
      ∧ ∀ symbol, symbol ∈ symbols.entries ∨ symbol ∈ symbols.names
        → symbol.references.Pairwise (· < ·)
          ∧ symbol.references
            = if symbol.sequence = 0 then
                Instruction.sources image instructions symbol.address
              else [] := by
  obtain ⟨stop, final, passes, ends⟩ := disassembly.decodeAll_ends room
  obtain ⟨-, -, sameImage, sameSymbols⟩ | ⟨error, -, failed, -⟩ := ends
  · have limit := disassembly.toNat_romFinish.2
    have notes : final.Notes disassembly.image
        ([] ++ disassembly.decodeAll.disassembly.instructions.toList) stop := by
      refine passes.accumulates (DecoderState.Notes disassembly.image)
        (fun _ _ _ _ inside outcome held => ?_) (setup_notes accepted)
      rw [BitAddress.lt_iff] at inside
      exact decode_notes held (by omega) outcome
    rw [List.nil_append] at notes
    obtain ⟨ledger, refines, noted⟩ := notes.noted
    rw [sameImage, sameSymbols]
    intro image symbols instructions
    refine ⟨fun instruction member branch => ?_, fun symbol member => ?_⟩
    · obtain ⟨symbol, placed, name⟩ :=
        Ledger.placed?_of_key (noted.named instruction member branch)
      obtain ⟨inside, there, -⟩ := Ledger.placed?_eq_some_iff.mp placed
      have known : ledger.named? instruction.operand = some symbol :=
        Ledger.named?_eq_some_iff.mpr ⟨inside, name⟩
      rw [notes.bits.target]
      constructor
      · rw [refines.nameAt?_eq, placed, Option.map_some, name]
      · rw [SymbolTable.addressOf, refines.findName?_eq, known, ← there]
    · have inside : symbol ∈ ledger.symbols := by
        rcases member with entry | name
        · exact refines.entries.mem_iff.mp entry
        · exact refines.names.mem_iff.mp name
      rw [noted.referred symbol inside, notes.bits.sources]
      refine ⟨?_, rfl⟩
      split
      · exact Instruction.sources_rising notes.rising _ _
      · exact .nil
  · cases failed.symm.trans succeeded

/-- A call and a jump to byte `$1004`, which annotations have given two names: both show the first
one, and both are its references.
-/
theorem decodeAll_notes_branches_twice
    : ∃ disassembly count,
        (setup #[0x0B, 0x04, 0x07, 0x04]
          (some [.symbol "ENTRY" 0x1004, .symbol "AGAIN" 0x1004])
          { origin := some 0x1000 }).outcome = .ok disassembly
        ∧ disassembly.image.finish.toNat ≤ 4294967296 - 136
        ∧ disassembly.decodeAll.outcome = .ok count
        ∧ let image := disassembly.decodeAll.disassembly.image
          let symbols := disassembly.decodeAll.disassembly.symbols
          let instructions := disassembly.decodeAll.disassembly.instructions.toList
          instructions.map (·.isBranch) = [true, true]
          ∧ (∀ instruction ∈ instructions, instruction.isBranch
            → symbols.nameAt? (instruction.target image) 0 = some instruction.operand)
          ∧ symbols.entries.map (·.references) = [[⟨0x8000⟩, ⟨0x8010⟩], []]
          ∧ ∀ symbol ∈ symbols.entries, symbol.references.Pairwise (· < ·) := by
  obtain ⟨disassembly, accepted, room, decoded, branches, references⟩
      : ∃ disassembly,
          (setup #[0x0B, 0x04, 0x07, 0x04]
            (some [.symbol "ENTRY" 0x1004, .symbol "AGAIN" 0x1004])
            { origin := some 0x1000 }).outcome = .ok disassembly
          ∧ disassembly.image.finish.toNat ≤ 4294967296 - 136
          ∧ disassembly.decodeAll.outcome.toOption = some 2
          ∧ disassembly.decodeAll.disassembly.instructions.toList.map (·.isBranch) = [true, true]
          ∧ disassembly.decodeAll.disassembly.symbols.entries.map (·.references)
            = [[⟨0x8000⟩, ⟨0x8010⟩], []] :=
    ⟨_, rfl, by decide, by decide +kernel, by decide +kernel, by decide +kernel⟩
  cases succeeded : disassembly.decodeAll.outcome with
  | error cause =>
      rw [succeeded] at decoded
      cases decoded
  | ok count =>
      obtain ⟨named, referred⟩ := decodeAll_notes_branches accepted room succeeded
      exact ⟨disassembly, count, accepted, room, succeeded, branches,
        fun instruction member branch => (named instruction member branch).1, references,
        fun symbol member => (referred symbol (.inl member)).1⟩

end Disassembly

end SpeechRom
