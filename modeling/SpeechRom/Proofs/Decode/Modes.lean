import SpeechRom.Proofs.Decode.TargetSites

/-! The mode register along the first pass. An instruction is met in the mode that the instructions
before it have left: the latest setting of the mode selects its operands, and the instruction just
before it decides on repeat bits and page.
-/

namespace SpeechRom

-----------------------------------------------------------------------------------------
-- Parts of the register
-----------------------------------------------------------------------------------------

/-- A mask reads the one of two parts that it belongs to. -/
theorem and_of_parts {first second mask : UInt8} (kept : first &&& mask = mask)
    (lost : second &&& mask = 0) (left right : UInt8)
    : ((left &&& first) ||| (right &&& second)) &&& mask = left &&& mask := by
  have spread : ((left &&& first) ||| (right &&& second)) &&& mask
      = ((left &&& first) &&& mask) ||| ((right &&& second) &&& mask) :=
    UInt8.toBitVec_inj.mp BitVec.and_or_distrib_right
  rw [spread, UInt8.and_assoc, UInt8.and_assoc, kept, lost, UInt8.and_zero, UInt8.or_zero]

namespace Mode

variable (mode : Mode) (page value : UInt8)

@[simp] theorem operandMode_withPage : (mode.withPage page).operandMode = mode.operandMode :=
  and_of_parts (by decide) (by decide) _ _

@[simp] theorem repeatBits_withPage : (mode.withPage page).repeatBits = mode.repeatBits :=
  and_of_parts (by decide) (by decide) _ _

@[simp] theorem page_withPage : (mode.withPage page).page = page &&& 0xF0 := by
  rw [Mode.page, withPage, UInt8.or_comm]
  exact and_of_parts (by decide) (by decide) _ _

@[simp] theorem operandMode_withLowNibble
    : (mode.withLowNibble value).operandMode = value &&& 0x03 := by
  rw [operandMode, withLowNibble, UInt8.or_comm]
  exact and_of_parts (by decide) (by decide) _ _

@[simp] theorem repeatBits_withLowNibble
    : (mode.withLowNibble value).repeatBits = value &&& 0x0C := by
  rw [repeatBits, withLowNibble, UInt8.or_comm]
  exact and_of_parts (by decide) (by decide) _ _

@[simp] theorem operandMode_withoutRepeatBits
    : mode.withoutRepeatBits.operandMode = mode.operandMode := by
  rw [operandMode, withoutRepeatBits, UInt8.and_assoc]
  rfl

@[simp] theorem repeatBits_withoutRepeatBits : mode.withoutRepeatBits.repeatBits = 0 := by
  rw [repeatBits, withoutRepeatBits, UInt8.and_assoc]
  exact UInt8.and_zero

@[simp] theorem page_withoutRepeatBits : mode.withoutRepeatBits.page = mode.page := by
  rw [Mode.page, withoutRepeatBits, UInt8.and_assoc]
  rfl

end Mode

/-- A page stands in the upper half of its byte. -/
@[simp] theorem BitAddress.page_and (address : BitAddress)
    : address.page &&& 0xF0 = address.page := by
  rw [page, UInt32.toUInt8_and, UInt8.and_assoc]
  rfl

/-- The parts that four immediate bits become, as numbers. -/
theorem immediate_parts (value : Fin 16)
    : (UInt8.ofNat value.val &&& 0x03).toNat = value.val % 4
      ∧ (UInt8.ofNat value.val &&& 0x0C).toNat = 4 * (value.val / 4)
      ∧ (UInt8.ofNat value.val <<< 4) &&& 0xF0 = UInt8.ofNat (16 * value.val) := by
  revert value
  decide

-----------------------------------------------------------------------------------------
-- Histories
-----------------------------------------------------------------------------------------

namespace Instruction

/-- The number in the four bits before the opcode. -/
def immediate (image : Image) (instruction : Instruction) : Nat :=
  (image.readForward instruction.address 4).toNat

/-- Whether the instruction sets operand mode and repeat bits. -/
def isSetMode (instruction : Instruction) : Bool := instruction.opcode.val = 8

/-- Whether the instruction sets the page. It shares its opcode with the return, whose immediate
value is zero.
-/
def isSetPage (image : Image) (instruction : Instruction) : Bool :=
  instruction.opcode.val = 0 && instruction.immediate image ≠ 0

theorem isSetMode_iff {instruction : Instruction}
    : instruction.isSetMode ↔ instruction.opcode = 8 := by
  simp [isSetMode, Fin.ext_iff]

theorem isSetPage_iff {image : Image} {instruction : Instruction}
    : instruction.isSetPage image
      ↔ instruction.opcode = 0 ∧ instruction.immediate image ≠ 0 := by
  simp [isSetPage]

theorem isReturn_iff {image : Image} {instruction : Instruction}
    : instruction.isReturn image
      ↔ instruction.opcode = 0 ∧ instruction.immediate image = 0 := by
  simp [isReturn, immediate, ← UInt32.toNat_inj]

end Instruction

/-- The mode in which the instruction at an address is met after others. For the operand mode the
latest setting of the mode counts, however long ago it was. Repeat bits and a page that was set
last for one instruction, and a return looks for the page just behind its opcode.
-/
structure Mode.Inherited (image : Image) (origin : BitAddress) (before : List Instruction)
    (address : BitAddress) (mode : Mode) : Prop where
  operandMode : mode.operandMode.toNat
    = match (before.filter (·.isSetMode)).getLast? with
      | some setting => setting.immediate image % 4
      | none => 0
  repeatBits : mode.repeatBits.toNat
    = match before.getLast? with
      | some last => if last.isSetMode then 4 * (last.immediate image / 4) else 0
      | none => 0
  page : mode.page
    = match before.getLast? with
      | some last =>
        if last.isSetPage image then UInt8.ofNat (16 * last.immediate image)
        else if last.isReturn image then (last.address + (8 : UInt32)).page
        else address.page
      | none => origin.page

namespace Reading

variable (table : FormatTable) (image : Image) (mode : Mode) (address : BitAddress)

/-- What a reading makes of the mode, part by part. -/
theorem ofImage_exitMode
    : let reading := ofImage table image mode address
      let immediate := FormatTable.nibble (image.readForward address 4)
      reading.exitMode.operandMode.toNat
        = (if reading.opcode = 8 then immediate.val % 4 else mode.operandMode.toNat)
      ∧ reading.exitMode.repeatBits.toNat
        = (if reading.opcode = 8 then 4 * (immediate.val / 4) else 0)
      ∧ reading.exitMode.page
        = if reading.opcode = 0 then
            if immediate.val = 0 then (address + (8 : UInt32)).page
            else UInt8.ofNat (16 * immediate.val)
          else (address + reading.length).page := by
  dsimp only
  obtain ⟨selected, extended, paged⟩ :=
    immediate_parts (FormatTable.nibble (image.readForward address 4))
  rw [ofImage_opcode]
  unfold ofImage
  dsimp only
  split
  · rename_i opcode
    split
    · simp [opcode]
    · simp [opcode, paged]
  · rename_i opcode
    simp [opcode, nextMode]
  · rename_i opcode
    simp [opcode, selected, extended]
  · rename_i opcode
    simp [opcode, nextMode]
  · rename_i notReturn _ notSetting _
    rw [if_neg notSetting, if_neg notSetting, if_neg notReturn]
    simp [nextMode]

theorem instruction_immediate (label : String)
    : ((ofImage table image mode address).instruction label).immediate image
      = (FormatTable.nibble (image.readForward address 4)).val := by
  have small := readForward_four_lt image address
  simp only [Instruction.immediate, instruction, ofImage_address]
  rw [FormatTable.nibble, Fin.val_ofNat, Nat.mod_eq_of_lt small]

end Reading

-----------------------------------------------------------------------------------------
-- First pass
-----------------------------------------------------------------------------------------

/-- The first instruction is met in the page of the origin, with all else clear. -/
theorem Mode.Inherited.of_origin (image : Image) (origin : BitAddress)
    : (Mode.ofAddress origin).Inherited image origin [] origin := by
  have clear (mask : UInt8) (apart : 0xF0 &&& mask = 0) : origin.page &&& mask = 0 := by
    rw [← origin.page_and, UInt8.and_assoc, apart, UInt8.and_zero]
  refine ⟨?_, ?_, origin.page_and⟩
  · exact congrArg UInt8.toNat (clear 0x03 (by decide))
  · exact congrArg UInt8.toNat (clear 0x0C (by decide))

/-- A step leaves the mode in which the next instruction is met. -/
theorem decode_inherited {table : FormatTable} {image : Image} {origin address : BitAddress}
    {before : List Instruction} {state : DecoderState} {instruction : Instruction}
    (bits : state.image.SameBits image)
    (inherited : state.mode.Inherited image origin before address)
    (outcome : (decode table address state).outcome = .ok instruction)
    : (decode table address state).state.mode.Inherited image origin (before ++ [instruction])
        instruction.finish := by
  obtain ⟨⟨label, made⟩, mode⟩ := decode_ok_reading outcome
  obtain ⟨operandMode, repeatBits, page⟩ :=
    Reading.ofImage_exitMode table state.image state.mode address
  have place : instruction.address = address := (decode_ok outcome).1
  have length := (decode_ok outcome).2
  have opcode : instruction.opcode
      = (Reading.ofImage table state.image state.mode address).opcode := by rw [made]; rfl
  have immediate : (FormatTable.nibble (state.image.readForward address 4)).val
      = instruction.immediate image := by
    rw [← Reading.instruction_immediate table state.image state.mode address label, ← made]
    rw [Instruction.immediate, Instruction.immediate, bits.readForward]
  rw [← opcode, immediate] at operandMode repeatBits page
  rw [mode]
  refine ⟨?_, ?_, ?_⟩
  · rw [operandMode, List.filter_append]
    by_cases setting : instruction.opcode = 8
    · simp [Instruction.isSetMode_iff.mpr setting, setting]
    · simp [Instruction.isSetMode_iff, setting, inherited.operandMode]
  · rw [repeatBits]
    simp [Instruction.isSetMode_iff]
  · rw [page, List.getLast?_concat]
    dsimp only
    by_cases shared : instruction.opcode = 0
    · by_cases zero : instruction.immediate image = 0
      · simp [Instruction.isSetPage_iff, Instruction.isReturn_iff, shared, zero, place]
      · simp [Instruction.isSetPage_iff, shared, zero]
    · simp [Instruction.isSetPage_iff, Instruction.isReturn_iff, shared, Instruction.finish, place,
        length]

namespace Disassembly

/-- All instructions of a pass are met in the mode that those before them have left, and read by the
format of that mode. Witness: induction on the steps, with the instructions before them.
-/
theorem Passes.inherited {table : FormatTable} {image : Image}
    {origin finish address stop : BitAddress} {state final : DecoderState}
    {decoded earlier : List Instruction}
    (passes : Passes table finish address state decoded stop final)
    (bits : state.image.SameBits image)
    (inherited : state.mode.Inherited image origin earlier address)
    {before after : List Instruction} {instruction : Instruction}
    (split : decoded = before ++ instruction :: after)
    : instruction.mode.Inherited image origin (earlier ++ before) instruction.address
      ∧ instruction.format
        = table.format instruction.opcode
            (FormatTable.modeOf instruction.mode.operandMode) := by
  induction passes generalizing earlier before with
  | none => cases before <;> cases split
  | @next address state first rest _ _ inside outcome _ ih =>
      cases before with
      | nil =>
          obtain ⟨rfl, -⟩ := List.cons.inj split
          obtain ⟨⟨label, made⟩, -⟩ := decode_ok_reading outcome
          have met : first.mode = state.mode := by
            rw [made]
            exact Reading.ofImage_entryMode ..
          rw [List.append_nil, met, (decode_ok outcome).1]
          refine ⟨inherited, ?_⟩
          rw [made]
          exact Reading.ofImage_format ..
      | cons head before =>
          obtain ⟨rfl, tail⟩ := List.cons.inj split
          have later := ih ((decode_sameBits ..).trans bits)
            (decode_inherited bits inherited outcome) tail
          rw [List.append_assoc, List.singleton_append] at later
          exact later

/-- After a first pass that succeeds, each instruction was met in the mode that those before it have
left, and its format is the one of its opcode in that mode.
-/
theorem decodeAll_modes_inherited {disassembly : Disassembly} {count : Nat}
    (succeeded : disassembly.decodeAll.outcome = .ok count)
    : let image := disassembly.decodeAll.disassembly.image
      let instructions := disassembly.decodeAll.disassembly.instructions.toList
      ∀ before instruction after, instructions = before ++ instruction :: after
        → instruction.mode.Inherited image disassembly.origin before instruction.address
          ∧ instruction.format
            = Sp0256.table.format instruction.opcode
                (FormatTable.modeOf instruction.mode.operandMode) := by
  obtain ⟨stop, final, passes, -, sameImage, -, -⟩ := decodeAll_ok succeeded
  have bits : disassembly.startState.image.SameBits disassembly.decodeAll.disassembly.image := by
    rw [sameImage]
    exact passes.sameBits.symm
  intro image instructions before instruction after split
  exact passes.inherited bits (.of_origin image disassembly.origin) split

/-- The mode is set at byte `$1FFC`, the page is set twice, and a return at `$1FFF` looks across the
boundary of its page. The pause after it still has the operand mode of the first instruction.
-/
theorem decodeAll_modes_inherited_boundary
    : ∃ disassembly count,
        (setup #[0x98, 0x30, 0x50, 0x00, 0x0F] none { origin := some 0x1FFC }).outcome
          = .ok disassembly
        ∧ disassembly.decodeAll.outcome = .ok count
        ∧ let image := disassembly.decodeAll.disassembly.image
          let instructions := disassembly.decodeAll.disassembly.instructions.toList
          instructions.map (·.mode.bits) = [0x10, 0x19, 0x31, 0x51, 0x21]
          ∧ ∃ before last,
              instructions = before ++ [last]
              ∧ last.mode.Inherited image disassembly.origin before last.address := by
  obtain ⟨disassembly, accepted, decoded, modes⟩
      : ∃ disassembly,
          (setup #[0x98, 0x30, 0x50, 0x00, 0x0F] none { origin := some 0x1FFC }).outcome
            = .ok disassembly
          ∧ disassembly.decodeAll.outcome.toOption = some 5
          ∧ disassembly.decodeAll.disassembly.instructions.toList.map (·.mode.bits)
            = [0x10, 0x19, 0x31, 0x51, 0x21] :=
    ⟨_, rfl, by decide +kernel, by decide +kernel⟩
  cases succeeded : disassembly.decodeAll.outcome with
  | error cause =>
      rw [succeeded] at decoded
      cases decoded
  | ok count =>
      refine ⟨disassembly, count, accepted, succeeded, modes, ?_⟩
      rcases List.eq_nil_or_concat' disassembly.decodeAll.disassembly.instructions.toList with
        empty | ⟨before, last, split⟩
      · rw [empty] at modes
        cases modes
      · exact ⟨before, last, split, (decodeAll_modes_inherited succeeded before last [] split).1⟩

end Disassembly

end SpeechRom
