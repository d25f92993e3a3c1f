import SpeechRom.Proofs.Decode.Labels
import SpeechRom.Proofs.Decode.Replay
import SpeechRom.Proofs.Image.Flags

/-! Letters of made labels. A label tells whether its target lies in the image, which ends with a
whole word: the bytes that fill up the last word of a ROM count as its own.
-/

namespace SpeechRom

-----------------------------------------------------------------------------------------
-- Letters
-----------------------------------------------------------------------------------------

/-- A query reports being inside exactly when some bit of its range lies in the image. -/
theorem Image.tagsOver_inside_iff (image : Image) (address : BitAddress) (length : UInt32)
    : (image.tagsOver address length).hasAll TagSet.inside
      ↔ image.rangeCount address length ≠ 0 := by
  unfold tagsOver
  split
  · rename_i outside
    rw [outside]
    decide
  · rename_i count meets
    rw [TagSet.hasAll_inside_iff, flags_mergeRange, TagSet.flags_inside]
    exact ⟨fun _ => meets, fun _ => Finset.mem_union_left _ (Finset.mem_singleton_self _)⟩

/-- The letter for an address: `L` in the image and `G` outside. -/
def Image.letterOf (image : Image) (address : BitAddress) : Char :=
  if image.Holds address.toNat then 'L' else 'G'

/-- The eight bits of a byte lie in the image together, since it starts and ends with whole words.
-/
theorem labelLetter_eq (image : Image) {target : BitAddress} (aligned : target.toNat % 8 = 0)
    : labelLetter image target = image.letterOf target := by
  have start := image.aligned
  have size := image.tags_size
  have eight : (8 : UInt32).toNat = 8 := rfl
  have inside : (image.tagsOver target 8).hasAll TagSet.inside ↔ image.Holds target.toNat := by
    rw [image.tagsOver_inside_iff, Image.rangeCount, Image.rangeStop, Image.rangeStart, Image.Holds]
    omega
  rw [labelLetter, Image.letterOf, if_congr inside rfl rfl]

theorem Image.SameBits.letterOf {left right : Image} (same : left.SameBits right)
    (address : BitAddress)
    : left.letterOf address = right.letterOf address := by
  rw [Image.letterOf, Image.letterOf, if_congr (same.holds address.toNat) rfl rfl]

/-- In numbers of bytes, the letter depends on the first byte of the image and on its words. -/
theorem Image.letterOf_eq (image : Image) (address : BitAddress)
    : image.letterOf address
      = if image.origin.byte.toNat ≤ address.byte.toNat
            ∧ address.byte.toNat < image.origin.byte.toNat + 4 * image.words.size then 'L'
        else 'G' := by
  have start := image.aligned
  have size := image.tags_size
  have inside : image.Holds address.toNat
      ↔ image.origin.byte.toNat ≤ address.byte.toNat
        ∧ address.byte.toNat < image.origin.byte.toNat + 4 * image.words.size := by
    rw [Image.Holds, BitAddress.toNat_byte, BitAddress.toNat_byte]
    omega
  rw [letterOf, if_congr inside rfl rfl]

-----------------------------------------------------------------------------------------
-- First pass
-----------------------------------------------------------------------------------------

/-- What the first pass has named so far: targets of decoded branches and nothing else, each by its
made label with the letter for where it lies.
-/
structure DecoderState.Lettered (image : Image) (decoded : List Instruction)
    (state : DecoderState) : Prop where
  bits : state.image.SameBits image
  named : ∀ name place, state.symbols.Named name place
    → name = SymbolTable.madeLabel (image.letterOf place) place
      ∧ ∃ instruction ∈ decoded, instruction.isBranch ∧ instruction.target image = place

/-- A step that succeeds names the target of its instruction, if it is a branch without a name. -/
theorem decode_lettered {image : Image} {decoded : List Instruction} {address : BitAddress}
    {state : DecoderState} {instruction : Instruction}
    (lettered : state.Lettered image decoded)
    (outcome : (decode Sp0256.table address state).outcome = .ok instruction)
    : (decode Sp0256.table address state).state.Lettered image (decoded ++ [instruction]) := by
  have bits := (decode_sameBits Sp0256.table address state).trans lettered.bits
  refine ⟨bits, fun name place stands => ?_⟩
  have known (old : state.symbols.Named name place)
      : name = SymbolTable.madeLabel (image.letterOf place) place
        ∧ ∃ other ∈ decoded ++ [instruction],
            other.isBranch ∧ other.target image = place := by
    obtain ⟨made, other, member, leads⟩ := lettered.named name place old
    exact ⟨made, other, List.mem_append_left _ member, leads⟩
  rcases decode_ok_cases outcome with
    ⟨tagged, ⟨target, labelling, operand, labelled, rfl, symbols⟩ | ⟨-, -, symbols⟩⟩
  · rw [symbols] at stands
    rcases SymbolTable.label_ok labelled (SymbolTable.addReference_named stands) with
      old | ⟨letter, chosen, rfl, rfl⟩
    · exact known old
    obtain ⟨opcode, leads⟩ := Reading.ofImage_branch_iff.mp operand
    obtain ⟨byte, boundary⟩ := Reading.ofImage_branch operand
    have aligned : place.toNat % 8 = 0 := boundary ▸ BitAddress.ofByte_aligned byte
    rw [tagged] at bits
    have letters : letter = image.letterOf place := by
      rw [← Option.some.inj chosen, labelLetter_eq _ aligned, bits.letterOf]
    refine ⟨by rw [letters], _, List.mem_append_right _ (List.mem_singleton.mpr rfl), ?_, ?_⟩
    · exact (Reading.isBranch_instruction _ _).mpr opcode
    · rw [← lettered.bits.target, Reading.instruction_target, leads]
  · rw [symbols] at stands
    exact known stands

namespace Disassembly

theorem Passes.lettered {image : Image} {finish address stop : BitAddress}
    {state final : DecoderState} {decoded : List Instruction}
    (passes : Passes Sp0256.table finish address state decoded stop final)
    (start : state.Lettered image [])
    : final.Lettered image decoded :=
  passes.accumulates (fun before _ state => state.Lettered image before)
    (fun _ _ _ _ _ outcome held => decode_lettered held outcome) start

/-- Without annotations there are no names at first. -/
theorem setup_lettered {rom : Bytes} {settings : Settings} {disassembly : Disassembly}
    (accepted : (setup rom none settings).outcome = .ok disassembly)
    : disassembly.startState.Lettered disassembly.image [] := by
  obtain ⟨_, -, -, defined⟩ := setup_ok accepted
  refine ⟨.refl _, fun name place stands => ?_⟩
  change disassembly.symbols.Named name place at stands
  rw [defined] at stands
  obtain ⟨_, member, -⟩ := stands
  cases member

/-- The label for a byte of a disassembly is written with the letter of its place, where the bytes
that fill up the last word of the ROM count as inside.
-/
theorem madeLabel_letterOf {rom : Bytes} {annotations : Option Annotations} {settings : Settings}
    {disassembly : Disassembly}
    (accepted : (setup rom annotations settings).outcome = .ok disassembly) (target : BitAddress)
    : SymbolTable.madeLabel (disassembly.image.letterOf target) target
      = (if disassembly.origin.byte.toNat ≤ target.byte.toNat
            ∧ target.byte.toNat < disassembly.origin.byte.toNat + 4 * ((rom.size + 3) / 4) then "L_"
          else "G_") ++ Text.hexPadded 4 target.byte.toNat := by
  have size := setup_sizeBits accepted
  have words : disassembly.image.words.size = (rom.size + 3) / 4 := by
    rw [disassembly.image.words_size]
    omega
  rw [SymbolTable.madeLabel, Image.letterOf_eq, words, origin]
  split <;> rfl

/-- Without annotations the first pass succeeds and names the targets of branches and nothing else.
The label that a branch shows starts with `L` where its target is a byte of the ROM or one of those
that fill up the last word of the ROM, and with `G` otherwise.
-/
theorem decodeAll_letters_by_words {rom : Bytes} {settings : Settings} {disassembly : Disassembly}
    (accepted : (setup rom none settings).outcome = .ok disassembly)
    (room : disassembly.image.finish.toNat ≤ 4294967296 - 136)
    : let decoded := disassembly.decodeAll.disassembly
      let first := disassembly.origin.byte.toNat
      let label := fun (target : BitAddress) =>
        (if first ≤ target.byte.toNat ∧ target.byte.toNat < first + 4 * ((rom.size + 3) / 4) then
            "L_"
          else "G_") ++ Text.hexPadded 4 target.byte.toNat
      (∃ count, disassembly.decodeAll.outcome = .ok count)
      ∧ (∀ instruction ∈ decoded.instructions.toList, instruction.isBranch
          → instruction.operand = label (instruction.target decoded.image))
      ∧ ∀ symbol ∈ decoded.symbols.entries,
          symbol.name = label symbol.address
          ∧ ∃ instruction ∈ decoded.instructions.toList,
              instruction.isBranch ∧ instruction.target decoded.image = symbol.address := by
  intro decoded first label
  obtain ⟨count, succeeded⟩ := decodeAll_succeeds accepted room
  obtain ⟨stop, final, passes, -, image, symbols, -⟩ := decodeAll_ok succeeded
  have limit := disassembly.toNat_romFinish.2
  have lettered := passes.lettered (setup_lettered accepted)
  obtain ⟨ledger, refines, noted⟩ := (passes.notes (by omega) (setup_notes accepted)).noted
  have bits : decoded.image.SameBits disassembly.image := image ▸ lettered.bits
  have stands {symbol : Symbol} (member : symbol ∈ ledger.symbols)
      : final.symbols.Named symbol.name symbol.address :=
    ⟨symbol, refines.names.mem_iff.mpr member, rfl, rfl⟩
  refine ⟨⟨count, succeeded⟩, fun instruction member branch => ?_, fun symbol member => ?_⟩
  · obtain ⟨symbol, placed, shown⟩ :=
      Ledger.placed?_of_key (noted.named instruction member branch)
    obtain ⟨inside, there, -⟩ := Ledger.placed?_eq_some_iff.mp placed
    have made := (lettered.named _ _ (stands inside)).1
    rw [← shown, made, there, bits.target]
    exact madeLabel_letterOf accepted _
  · have inside : symbol ∈ ledger.symbols :=
      refines.entries.mem_iff.mp (symbols ▸ member)
    obtain ⟨made, instruction, decodes, branch, leads⟩ := lettered.named _ _ (stands inside)
    refine ⟨made.trans (madeLabel_letterOf accepted _), instruction, decodes, branch, ?_⟩
    rw [bits.target, leads]

/-- A ROM of six bytes with two calls and a jump: `$1000` lies in the ROM, `$1006` in the rest of
its last word, and `$1008` outside.
-/
theorem decodeAll_letters_by_words_calls
    : ∃ disassembly,
        (setup #[0x0B, 0x00, 0x0B, 0x06, 0x07, 0x08] none { origin := some 0x1000 }).outcome
          = .ok disassembly
        ∧ disassembly.image.finish.toNat ≤ 4294967296 - 136
        ∧ let decoded := disassembly.decodeAll.disassembly
          (∃ count, disassembly.decodeAll.outcome = .ok count)
          ∧ decoded.symbols.entries.map (·.name) = ["L_1000", "L_1006", "G_1008"]
          ∧ ∀ symbol ∈ decoded.symbols.entries,
              ∃ instruction ∈ decoded.instructions.toList,
                instruction.isBranch ∧ instruction.target decoded.image = symbol.address := by
  obtain ⟨disassembly, accepted, room, names⟩
      : ∃ disassembly,
          (setup #[0x0B, 0x00, 0x0B, 0x06, 0x07, 0x08] none { origin := some 0x1000 }).outcome
            = .ok disassembly
          ∧ disassembly.image.finish.toNat ≤ 4294967296 - 136
          ∧ disassembly.decodeAll.disassembly.symbols.entries.map (·.name)
            = ["L_1000", "L_1006", "G_1008"] :=
    ⟨_, rfl, by decide, by decide +kernel⟩
  obtain ⟨succeeds, -, named⟩ := decodeAll_letters_by_words accepted room
  exact ⟨disassembly, accepted, room, succeeds, names, fun symbol member => (named symbol member).2⟩

/-- A jump over the end of a ROM of two bytes: its target is no byte of the ROM, and yet its label
starts with `L`.
-/
theorem letter_past_rom
    : ∃ disassembly,
        (setup #[0x07, 0x02] none { origin := some 0x1000 }).outcome = .ok disassembly
        ∧ disassembly.image.finish.toNat ≤ 4294967296 - 136
        ∧ ∃ symbol ∈ disassembly.decodeAll.disassembly.symbols.entries,
            symbol.name = "L_1002"
            ∧ ¬ (disassembly.origin.byte.toNat ≤ symbol.address.byte.toNat
              ∧ symbol.address.byte.toNat < disassembly.origin.byte.toNat + 2) :=
  ⟨_, rfl, by decide, by decide +kernel⟩

end Disassembly

end SpeechRom
