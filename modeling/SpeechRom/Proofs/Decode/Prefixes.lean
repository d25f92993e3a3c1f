import SpeechRom.Proofs.Decode.Agreement
import SpeechRom.Proofs.Decode.Labels
import SpeechRom.Proofs.Decode.Wrapping
import SpeechRom.Proofs.Image.Bytes

/-! ROMs with a common beginning. An instruction is read from its own bits alone, so what comes
after the common bytes does not change the instructions that end within them. Only tags and labels
look further: a return looks at the byte behind it, and a label at whether its target is in the
image.
-/

namespace SpeechRom

-----------------------------------------------------------------------------------------
-- Images with a common beginning
-----------------------------------------------------------------------------------------

/-- All that a reading takes from an image, but for its tags, is the immediate value, the opcode
and, for a branch, the lower byte of the target.
-/
theorem Reading.untagged_congr {table : FormatTable} {left right : Image} {mode : Mode}
    {address : BitAddress}
    (immediate : left.readForward address 4 = right.readForward address 4)
    (code : left.readForward (address + (4 : UInt32)) 4
      = right.readForward (address + (4 : UInt32)) 4)
    (lower : (ofImage table left mode address).opcode = 7
        ∨ (ofImage table left mode address).opcode = 11
      → left.readForward (address + (8 : UInt32)) 8
        = right.readForward (address + (8 : UInt32)) 8)
    : (ofImage table left mode address).untagged
      = (ofImage table right mode address).untagged := by
  rw [ofImage_opcode, code] at lower
  unfold ofImage
  simp only [immediate, code]
  generalize FormatTable.nibble (right.readForward (address + (4 : UInt32)) 4) = opcode at lower ⊢
  split
  · split
    · -- What lies behind a return matters for its tags only.
      simp only [untagged]
    · rfl
  · rw [branchTarget, branchTarget, lower (.inl rfl)]
  · rfl
  · rw [branchTarget, branchTarget, lower (.inr rfl)]
  · rfl

/-- Images have the same bits up to a limit. -/
def Image.SameBelow (limit : Nat) (left right : Image) : Prop :=
  ∀ bit < limit, left.bitAt bit = right.bitAt bit

namespace Image.SameBelow

variable {limit : Nat} {left right : Image}

theorem symm (same : SameBelow limit left right) : SameBelow limit right left :=
  fun bit below => (same bit below).symm

theorem of_sameBits {leftOther rightOther : Image} (same : SameBelow limit left right)
    (leftBits : leftOther.SameBits left) (rightBits : rightOther.SameBits right)
    : SameBelow limit leftOther rightOther := by
  intro bit below
  rw [leftBits.bitAt, rightBits.bitAt, same bit below]

/-- A read that ends at the limit or before it gives the same on both sides. -/
theorem readForward (same : SameBelow limit left right) {address : BitAddress} {width : UInt32}
    (within : address.toNat + width.toNat ≤ limit)
    : left.readForward address width = right.readForward address width := by
  refine UInt32.toNat.inj ?_
  rw [toNat_readForward, toNat_readForward]
  refine Finset.sum_congr rfl fun place member => ?_
  have inside := Finset.mem_range.mp member
  rw [same _ (by omega)]

/-- The same for a read some bits behind an address, where nothing wraps. -/
theorem readForward_add (same : SameBelow limit left right) (low : limit < 4294967296)
    {address : BitAddress} {offset width : UInt32}
    (within : address.toNat + offset.toNat + width.toNat ≤ limit)
    : left.readForward (address + offset) width = right.readForward (address + offset) width := by
  have place : (address + offset).toNat = address.toNat + offset.toNat :=
    BitAddress.toNat_add_of_lt (by omega)
  exact same.readForward (place ▸ within)

/-- An instruction that ends at the limit or before it is read alike on both sides. Witness: opcode
and immediate value are in its first byte, and a branch has the rest of its target in the second.
-/
theorem untagged_ofImage (same : SameBelow limit left right) (low : limit < 4294967296)
    {mode : Mode} {address : BitAddress}
    (within : address.toNat + (Reading.ofImage Sp0256.table left mode address).length.toNat ≤ limit)
    : (Reading.ofImage Sp0256.table left mode address).untagged
      = (Reading.ofImage Sp0256.table right mode address).untagged := by
  have byte := (Reading.ofImage_sp0256_length left mode address).1
  refine Reading.untagged_congr ?_ ?_ fun branch => ?_
  · exact same.readForward (by change _ + 4 ≤ _; omega)
  · exact same.readForward_add low (by change _ + 4 + 4 ≤ _; omega)
  · have bytes : 16 ≤ (Reading.ofImage Sp0256.table left mode address).length.toNat := by
      rcases Reading.ofImage_length Sp0256.table left mode address with ⟨-, page, -⟩ | format
      · rw [page] at branch
        exact absurd branch (by decide)
      · rw [format, Reading.ofImage_format]
        exact Sp0256.branch_length branch _ address
    exact same.readForward_add low (by change _ + 8 + 8 ≤ _; omega)

end Image.SameBelow

-----------------------------------------------------------------------------------------
-- Instructions up to a limit
-----------------------------------------------------------------------------------------

/-- Whether the instruction ends at a bit or before it. -/
def Instruction.endsBy (limit : Nat) (instruction : Instruction) : Bool :=
  instruction.finish.toNat ≤ limit

theorem Instruction.limit_le_finish {limit : Nat} {instruction : Instruction}
    (out : ¬ instruction.endsBy limit)
    : limit ≤ instruction.finish.toNat := by
  rw [endsBy, decide_eq_true_iff] at out
  omega

namespace Tiles

variable {finish start stop : Nat} {instructions : List Instruction}

/-- No tile behind a limit ends before it. -/
theorem filter_endsBy_eq_nil (tiles : Tiles finish start instructions stop) {limit : Nat}
    (past : limit ≤ start)
    : instructions.filter (Instruction.endsBy limit) = [] := by
  refine List.filter_eq_nil_iff.mpr fun instruction member ends => ?_
  obtain ⟨behind, onward⟩ := tiles.rising.2 instruction member
  have ends := of_decide_eq_true ends
  rw [BitAddress.lt_iff] at onward
  omega

/-- The tiles that end up to a limit are the first ones, by induction on the tiles. -/
theorem filter_endsBy_isPrefix (tiles : Tiles finish start instructions stop) (limit : Nat)
    : instructions.filter (Instruction.endsBy limit) <+: instructions := by
  induction instructions generalizing start with
  | nil => exact List.prefix_rfl
  | cons first rest ih =>
      obtain ⟨-, -, -, -, later⟩ := tiles
      by_cases ends : first.endsBy limit
      · rw [List.filter_cons_of_pos ends]
        exact List.prefix_cons_inj first |>.mpr (ih later)
      · rw [List.filter_cons_of_neg ends,
          later.filter_endsBy_eq_nil (Instruction.limit_le_finish ends)]
        exact List.nil_prefix

end Tiles

-----------------------------------------------------------------------------------------
-- Two passes
-----------------------------------------------------------------------------------------

/-- An instruction that ends up to the limit is read alike in the other image. -/
theorem decode_untagged {limit : Nat} {image other : Image} {address : BitAddress}
    {state : DecoderState} {instruction : Instruction}
    (same : Image.SameBelow limit image other) (low : limit < 4294967296)
    (room : address.toNat + 136 < 4294967296) (bits : state.image.SameBits image)
    (outcome : (decode Sp0256.table address state).outcome = .ok instruction)
    (ends : instruction.endsBy limit)
    : (Reading.ofImage Sp0256.table image state.mode address).untagged
      = (Reading.ofImage Sp0256.table other state.mode address).untagged := by
  have within := of_decide_eq_true ends
  rw [(Disassembly.decode_finish outcome room).2, (decode_ok outcome).2, bits.ofImage] at within
  exact same.untagged_ofImage low within

/-- If the next instruction of either side ends up to the limit, both sides decode it alike. -/
theorem decode_readAlike_below {limit : Nat} {leftImage rightImage : Image} {address : BitAddress}
    {left right : DecoderState} {first second : Instruction}
    (same : Image.SameBelow limit leftImage rightImage) (low : limit < 4294967296)
    (room : address.toNat + 136 < 4294967296)
    (leftBits : left.image.SameBits leftImage) (rightBits : right.image.SameBits rightImage)
    (modes : left.mode = right.mode)
    (leftOutcome : (decode Sp0256.table address left).outcome = .ok first)
    (rightOutcome : (decode Sp0256.table address right).outcome = .ok second)
    (ends : first.endsBy limit ∨ second.endsBy limit)
    : first.ReadAlike leftImage rightImage second
      ∧ (decode Sp0256.table address left).state.mode
        = (decode Sp0256.table address right).state.mode := by
  refine decode_readAlike leftBits rightBits ?_ leftOutcome rightOutcome
  rcases ends with ends | ends
  · rw [← modes]
    exact decode_untagged same low room leftBits leftOutcome ends
  · rw [modes]
    exact (decode_untagged same.symm low room rightBits rightOutcome ends).symm

namespace Disassembly

/-- Two passes over images with a common beginning decode the same instructions up to its end.
Witness: induction on the steps of one side. While the cursor has not left the common bits, both
sides read the same instruction, or both read one that sticks out.
-/
theorem Passes.readAlike_below {limit : Nat} {leftImage rightImage : Image}
    {leftFinish rightFinish address leftStop rightStop : BitAddress}
    {left right leftFinal rightFinal : DecoderState}
    {leftDecoded rightDecoded : List Instruction}
    (same : Image.SameBelow limit leftImage rightImage)
    (leftLimit : limit ≤ leftFinish.toNat) (leftRoom : leftFinish.toNat ≤ 4294967296 - 136)
    (rightLimit : limit ≤ rightFinish.toNat) (rightRoom : rightFinish.toNat ≤ 4294967296 - 136)
    (leftPasses : Passes Sp0256.table leftFinish address left leftDecoded leftStop leftFinal)
    (rightPasses : Passes Sp0256.table rightFinish address right rightDecoded rightStop rightFinal)
    (leftEnds : ¬ leftStop < leftFinish) (rightEnds : ¬ rightStop < rightFinish)
    (leftBits : left.image.SameBits leftImage) (rightBits : right.image.SameBits rightImage)
    (modes : left.mode = right.mode)
    : List.Forall₂ (Instruction.ReadAlike leftImage rightImage)
        (leftDecoded.filter (Instruction.endsBy limit))
        (rightDecoded.filter (Instruction.endsBy limit)) := by
  induction leftPasses generalizing right rightDecoded with
  | none =>
      rw [BitAddress.lt_iff] at leftEnds
      rw [(rightPasses.tiles rightRoom).filter_endsBy_eq_nil (by omega)]
      exact .nil
  | @next address left first rest _ _ inside outcome later ih =>
      cases rightPasses with
      | none =>
          have tiles := (Passes.next inside outcome later).tiles leftRoom
          rw [BitAddress.lt_iff] at rightEnds
          rw [tiles.filter_endsBy_eq_nil (by omega)]
          exact .nil
      | @next _ _ second others _ _ otherInside otherOutcome otherLater =>
          rw [BitAddress.lt_iff] at inside
          by_cases ends : first.endsBy limit ∨ second.endsBy limit
          · obtain ⟨alike, nextModes⟩ := decode_readAlike_below same (by omega) (by omega) leftBits
              rightBits modes outcome otherOutcome ends
            have both : first.endsBy limit = second.endsBy limit := by
              rw [Instruction.endsBy, Instruction.endsBy, alike.finish]
            rw [both, or_self] at ends
            rw [← alike.finish] at otherLater
            rw [List.filter_cons_of_pos (both ▸ ends), List.filter_cons_of_pos ends]
            exact .cons alike (ih otherLater leftEnds ((decode_sameBits ..).trans leftBits)
              ((decode_sameBits ..).trans rightBits) nextModes)
          · -- Both instructions stick out, and all that follow lie behind the limit.
            obtain ⟨leftOut, rightOut⟩ := not_or.mp ends
            rw [List.filter_cons_of_neg leftOut, List.filter_cons_of_neg rightOut,
              (later.tiles leftRoom).filter_endsBy_eq_nil (Instruction.limit_le_finish leftOut),
              (otherLater.tiles rightRoom).filter_endsBy_eq_nil
                (Instruction.limit_le_finish rightOut)]
            exact .nil

/-- Passes over set-ups with a common beginning agree up to its end. -/
theorem Passes.agree_below {limit : Nat} {left right : Disassembly}
    {leftStop rightStop : BitAddress} {leftFinal rightFinal : DecoderState}
    {leftDecoded rightDecoded : List Instruction} {leftLedger rightLedger : Ledger}
    (leftRefines : left.symbols.Refines leftLedger)
    (rightRefines : right.symbols.Refines rightLedger)
    (same : Image.SameBelow limit left.image right.image) (origins : left.origin = right.origin)
    (leftLimit : limit ≤ left.romFinish.toNat)
    (leftRoom : left.romFinish.toNat ≤ 4294967296 - 136)
    (rightLimit : limit ≤ right.romFinish.toNat)
    (rightRoom : right.romFinish.toNat ≤ 4294967296 - 136)
    (leftPasses : Passes Sp0256.table left.romFinish left.origin left.startState leftDecoded
      leftStop leftFinal)
    (rightPasses : Passes Sp0256.table right.romFinish right.origin right.startState rightDecoded
      rightStop rightFinal)
    (leftEnds : ¬ leftStop < left.romFinish) (rightEnds : ¬ rightStop < right.romFinish)
    : List.Forall₂
        (Instruction.Agree leftFinal.image rightFinal.image leftFinal.symbols rightFinal.symbols)
        (leftDecoded.filter (Instruction.endsBy limit))
        (rightDecoded.filter (Instruction.endsBy limit)) := by
  have leftNamed := leftPasses.addressOf_operand leftRefines
  have rightNamed := rightPasses.addressOf_operand rightRefines
  have modes : left.startState.mode = right.startState.mode := congrArg Mode.ofAddress origins
  refine agree_of_readAlike ?_
    (fun instruction member => leftNamed instruction (List.mem_of_mem_filter member))
    (fun instruction member => rightNamed instruction (List.mem_of_mem_filter member))
  rw [← origins] at rightPasses
  exact leftPasses.readAlike_below (same.of_sameBits leftPasses.sameBits rightPasses.sameBits)
    leftLimit leftRoom rightLimit rightRoom rightPasses leftEnds rightEnds
    leftPasses.sameBits.symm rightPasses.sameBits.symm modes

/-- The image of a ROM has its bits from the origin on, and zeros after them. -/
theorem setup_bitAt {rom : Bytes} {annotations : Option Annotations} {settings : Settings}
    {disassembly : Disassembly}
    (accepted : (setup rom annotations settings).outcome = .ok disassembly) (index : Nat)
    : disassembly.image.bitAt (disassembly.origin.toNat + index)
      = (Image.byteAt rom (index / 8)).toNat.testBit (7 - index % 8) := by
  obtain ⟨blank, created, size, bits⟩ := setup_bits accepted
  rw [bits.bitAt]
  exact Image.bitAt_load created (Nat.le_of_eq size.symm) index

/-- ROMs with a common beginning at one place have the same bits up to its end. -/
theorem setup_sameBelow {shared leftRest rightRest : Bytes}
    {leftAnnotations rightAnnotations : Option Annotations}
    {leftSettings rightSettings : Settings} {left right : Disassembly}
    (leftAccepted : (setup (shared ++ leftRest) leftAnnotations leftSettings).outcome = .ok left)
    (rightAccepted : (setup (shared ++ rightRest) rightAnnotations rightSettings).outcome
      = .ok right)
    (origins : left.origin = right.origin)
    : Image.SameBelow (left.origin.toNat + 8 * shared.size) left.image right.image := by
  intro bit below
  by_cases before : left.origin.toNat ≤ bit
  · obtain ⟨index, rfl⟩ := Nat.exists_eq_add_of_le before
    have inside : index / 8 < shared.size := by omega
    rw [setup_bitAt leftAccepted, origins, setup_bitAt rightAccepted,
      Image.byteAt_append_left inside, Image.byteAt_append_left inside]
  · have rightBefore : ¬ right.origin.toNat ≤ bit := origins ▸ before
    exact (if_neg before).trans (if_neg rightBefore).symm

/-- The beginning of a ROM does not reach past its end. -/
theorem setup_beginning_le {front rest : Bytes} {annotations : Option Annotations}
    {settings : Settings} {disassembly : Disassembly}
    (accepted : (setup (front ++ rest) annotations settings).outcome = .ok disassembly)
    : disassembly.origin.toNat + 8 * front.size ≤ disassembly.romFinish.toNat := by
  have size := setup_sizeBits accepted
  rw [Array.size_append] at size
  rw [disassembly.toNat_romFinish.1, size]
  omega

/-- What follows in a ROM does not change how its beginning is decoded. ROMs with the same first
bytes at one place are both decoded to their ends without annotations. The instructions that end
within these bytes come first in both, there are as many of them in both, and each agrees with its
counterpart.
-/
theorem decodeAll_shares_beginning {shared leftRest rightRest : Bytes}
    {leftSettings rightSettings : Settings} {left right : Disassembly}
    (leftAccepted : (setup (shared ++ leftRest) none leftSettings).outcome = .ok left)
    (rightAccepted : (setup (shared ++ rightRest) none rightSettings).outcome = .ok right)
    (origins : left.origin = right.origin)
    (leftRoom : left.image.finish.toNat ≤ 4294967296 - 136)
    (rightRoom : right.image.finish.toNat ≤ 4294967296 - 136)
    : let within := Instruction.endsBy (left.origin.toNat + 8 * shared.size)
      let leftDecoded := left.decodeAll.disassembly
      let rightDecoded := right.decodeAll.disassembly
      let leftInstructions := leftDecoded.instructions.toList
      let rightInstructions := rightDecoded.instructions.toList
      left.decodeAll.outcome = .ok leftInstructions.length
      ∧ right.decodeAll.outcome = .ok rightInstructions.length
      ∧ leftInstructions.filter within <+: leftInstructions
      ∧ rightInstructions.filter within <+: rightInstructions
      ∧ List.Forall₂
          (Instruction.Agree leftDecoded.image rightDecoded.image leftDecoded.symbols
            rightDecoded.symbols)
          (leftInstructions.filter within) (rightInstructions.filter within) := by
  obtain ⟨_, leftSucceeded⟩ := decodeAll_succeeds leftAccepted leftRoom
  obtain ⟨_, rightSucceeded⟩ := decodeAll_succeeds rightAccepted rightRoom
  obtain ⟨_, _, leftPasses, leftEnds, leftImage, leftSymbols, rfl⟩ := decodeAll_ok leftSucceeded
  obtain ⟨_, _, rightPasses, rightEnds, rightImage, rightSymbols, rfl⟩ :=
    decodeAll_ok rightSucceeded
  have leftBelow := Nat.le_trans left.toNat_romFinish.2 leftRoom
  have rightBelow := Nat.le_trans right.toNat_romFinish.2 rightRoom
  intro within leftDecoded rightDecoded leftInstructions rightInstructions
  refine ⟨leftSucceeded, rightSucceeded, (leftPasses.tiles leftBelow).filter_endsBy_isPrefix _,
    (rightPasses.tiles rightBelow).filter_endsBy_isPrefix _, ?_⟩
  obtain ⟨_, leftRefines, -⟩ := (setup_notes leftAccepted).noted
  obtain ⟨_, rightRefines, -⟩ := (setup_notes rightAccepted).noted
  rw [leftImage, leftSymbols, rightImage, rightSymbols]
  exact leftPasses.agree_below leftRefines rightRefines
    (setup_sameBelow leftAccepted rightAccepted origins) origins (setup_beginning_le leftAccepted)
    leftBelow (origins ▸ setup_beginning_le rightAccepted) rightBelow rightPasses leftEnds rightEnds

/-- Two ROMs that part in the middle of a jump: the call and the return before it agree, though the
target of the call is outside one image and inside the other, and the jumps lead to different
places.
-/
theorem decodeAll_shares_beginning_call
    : ∃ short long,
        (setup (#[0x0B, 0x04, 0x00, 0x07] ++ #[]) none {}).outcome = .ok short
        ∧ (setup (#[0x0B, 0x04, 0x00, 0x07] ++ #[0x04, 0x08]) none {}).outcome = .ok long
        ∧ short.origin = long.origin
        ∧ short.image.finish.toNat ≤ 4294967296 - 136
        ∧ long.image.finish.toNat ≤ 4294967296 - 136
        ∧ let within := Instruction.endsBy (short.origin.toNat + 8 * 4)
          let shortDecoded := short.decodeAll.disassembly
          let longDecoded := long.decodeAll.disassembly
          shortDecoded.instructions.toList.map (·.operand) = ["G_1004", "", "L_1000"]
          ∧ longDecoded.instructions.toList.map (·.operand)
            = ["L_1004", "", "L_1004", "RPT=$0?, MODE=00"]
          ∧ (shortDecoded.instructions.toList.filter within).map (·.mnemonic) = ["JSR", "RTS"]
          ∧ List.Forall₂
              (Instruction.Agree shortDecoded.image longDecoded.image shortDecoded.symbols
                longDecoded.symbols)
              (shortDecoded.instructions.toList.filter within)
              (longDecoded.instructions.toList.filter within) := by
  obtain ⟨short, shortAccepted, shortOrigin, shortRoom, shortShown, names⟩
      : ∃ short,
          (setup (#[0x0B, 0x04, 0x00, 0x07] ++ #[]) none {}).outcome = .ok short
          ∧ short.origin = ⟨0x8000⟩
          ∧ short.image.finish.toNat ≤ 4294967296 - 136
          ∧ short.decodeAll.disassembly.instructions.toList.map (·.operand)
            = ["G_1004", "", "L_1000"]
          ∧ (short.decodeAll.disassembly.instructions.toList.filter
              (Instruction.endsBy (short.origin.toNat + 8 * 4))).map (·.mnemonic)
            = ["JSR", "RTS"] :=
    ⟨_, rfl, by decide, by decide, by decide +kernel, by decide +kernel⟩
  obtain ⟨long, longAccepted, longOrigin, longRoom, longShown⟩
      : ∃ long,
          (setup (#[0x0B, 0x04, 0x00, 0x07] ++ #[0x04, 0x08]) none {}).outcome = .ok long
          ∧ long.origin = ⟨0x8000⟩
          ∧ long.image.finish.toNat ≤ 4294967296 - 136
          ∧ long.decodeAll.disassembly.instructions.toList.map (·.operand)
            = ["L_1004", "", "L_1004", "RPT=$0?, MODE=00"] :=
    ⟨_, rfl, by decide, by decide, by decide +kernel⟩
  have origins : short.origin = long.origin := shortOrigin.trans longOrigin.symm
  obtain ⟨-, -, -, -, agree⟩ :=
    decodeAll_shares_beginning shortAccepted longAccepted origins shortRoom longRoom
  exact ⟨short, long, shortAccepted, longAccepted, origins, shortRoom, longRoom, shortShown,
    longShown, names, agree⟩

end Disassembly

end SpeechRom
