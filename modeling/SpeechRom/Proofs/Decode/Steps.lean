import SpeechRom.Disassembly
import SpeechRom.Proofs.Format.Lengths

/-! Decoding step after step. One instruction is decoded as its reading says, and the first pass
is the loop of such steps, which needs no bound on their number.
-/

namespace SpeechRom

namespace Reading

variable (table : FormatTable) (image : Image) (mode : Mode) (address : BitAddress)

theorem ofImage_address : (ofImage table image mode address).address = address := by
  unfold ofImage
  dsimp only
  split
  · split <;> rfl
  all_goals rfl

/-- The format is that of the opcode in the operand mode that the instruction meets. -/
theorem ofImage_format
    : (ofImage table image mode address).format
      = table.format (ofImage table image mode address).opcode
          (FormatTable.modeOf mode.operandMode) := by
  unfold ofImage
  dsimp only
  split
  · split <;> rfl
  all_goals rfl

theorem ofImage_opcode
    : (ofImage table image mode address).opcode
      = FormatTable.nibble (image.readForward (address + (4 : UInt32)) 4) := by
  unfold ofImage
  dsimp only
  split
  · split <;> rfl
  all_goals rfl

/-- An instruction is as long as its format, unless it sets the page: then it has a byte. -/
theorem ofImage_length
    : (ofImage table image mode address).length = 8
        ∧ (ofImage table image mode address).opcode = 0
        ∧ (FormatTable.nibble (image.readForward address 4)).val ≠ 0
      ∨ (ofImage table image mode address).length
        = placedLength ((ofImage table image mode address).format.place address) := by
  rw [ofImage_opcode]
  unfold ofImage
  dsimp only
  split
  · rename_i opcode
    split
    · exact .inr rfl
    · rename_i page
      exact .inl ⟨rfl, opcode, page⟩
  all_goals exact .inr rfl

/-- Instructions of the processor have between 8 and 136 bits. -/
theorem ofImage_sp0256_length
    : 8 ≤ (ofImage Sp0256.table image mode address).length.toNat
      ∧ (ofImage Sp0256.table image mode address).length.toNat ≤ 136 := by
  rcases ofImage_length Sp0256.table image mode address with ⟨byte, -, -⟩ | format
  · rw [byte]
    decide
  · rw [format, ofImage_format]
    exact Sp0256.length_bounds _ _ address

end Reading

/-- The image after the tags of a reading have been put on it. -/
def Reading.taggedImage (reading : Reading) (image : Image) : Image :=
  applyTaggings image reading.taggings

/-- The three ways in which a step can go: a branch whose target cannot be named, a branch whose
target has a name then, and an instruction that is no branch.
-/
theorem decode_cases (table : FormatTable) (address : BitAddress) (state : DecoderState)
    : let reading := Reading.ofImage table state.image state.mode address
      let image := reading.taggedImage state.image
      (∃ target error,
        reading.operand = .branch target
        ∧ state.symbols.label target (some (labelLetter image target)) 0 = .error error
        ∧ decode table address state
          = ⟨⟨image, state.symbols, state.mode⟩, .error (.symbol error), none⟩)
      ∨ (∃ target labelling,
        reading.operand = .branch target
        ∧ state.symbols.label target (some (labelLetter image target)) 0 = .ok labelling
        ∧ decode table address state
          = finishStep reading image (labelling.table.addReference target address).1
              (labelling.name.getD "") labelling.added)
      ∨ ((∀ target, reading.operand ≠ .branch target)
        ∧ decode table address state = finishStep reading image state.symbols "" none) := by
  obtain ⟨bits, symbols, mode⟩ := state
  dsimp only [Reading.taggedImage]
  cases operand : (Reading.ofImage table bits mode address).operand with
  | branch target =>
      cases labelled : symbols.label target
          (some (labelLetter
            (applyTaggings bits (Reading.ofImage table bits mode address).taggings) target)) 0 with
      | error error =>
          refine .inl ⟨target, error, rfl, labelled, ?_⟩
          simp only [decode, operand, labelled]
      | ok labelling =>
          refine .inr (.inl ⟨target, labelling, rfl, labelled, ?_⟩)
          simp only [decode, operand, labelled]
  | absent | page | modeBits | repeatCount =>
      refine .inr (.inr ⟨by simp, ?_⟩)
      simp only [decode, operand]

theorem finishStep_ok {reading : Reading} {image : Image} {symbols : SymbolTable} {label : String}
    {added : Option Symbol} {instruction : Instruction}
    (outcome : (finishStep reading image symbols label added).outcome = .ok instruction)
    : instruction = reading.instruction label := by
  simp only [finishStep] at outcome
  split at outcome
  · cases outcome
  · exact (Except.ok.inj outcome).symm

/-- What a step that succeeds gives and leaves. A branch shows the name of its target and is noted
as a reference to it; other instructions leave the symbols as they are.
-/
theorem decode_ok_cases {table : FormatTable} {address : BitAddress} {state : DecoderState}
    {instruction : Instruction}
    (decoded : (decode table address state).outcome = .ok instruction)
    : let reading := Reading.ofImage table state.image state.mode address
      let after := (decode table address state).state
      after.image = reading.taggedImage state.image
      ∧ ((∃ target labelling,
          reading.operand = .branch target
          ∧ state.symbols.label target
              (some (labelLetter (reading.taggedImage state.image) target)) 0 = .ok labelling
          ∧ instruction = reading.instruction (labelling.name.getD "")
          ∧ after.symbols = (labelling.table.addReference target address).1)
        ∨ ((∀ target, reading.operand ≠ .branch target)
          ∧ instruction = reading.instruction ""
          ∧ after.symbols = state.symbols)) := by
  rcases decode_cases table address state with
    ⟨_, _, -, -, step⟩ | ⟨target, labelling, branch, labelled, step⟩ | ⟨other, step⟩
  · rw [step] at decoded
    cases decoded
  · rw [step] at decoded ⊢
    exact ⟨rfl, .inl ⟨target, labelling, branch, labelled, finishStep_ok decoded, rfl⟩⟩
  · rw [step] at decoded ⊢
    exact ⟨rfl, .inr ⟨other, finishStep_ok decoded, rfl⟩⟩

/-- A step that succeeds gives its reading with a label, and the mode moves on as it says. -/
theorem decode_ok_reading {table : FormatTable} {address : BitAddress} {state : DecoderState}
    {instruction : Instruction}
    (decoded : (decode table address state).outcome = .ok instruction)
    : let reading := Reading.ofImage table state.image state.mode address
      (∃ label, instruction = reading.instruction label)
      ∧ (decode table address state).state.mode = reading.exitMode := by
  rcases decode_cases table address state with ⟨_, _, -, -, step⟩ | ⟨_, _, -, -, step⟩ | ⟨-, step⟩
  · rw [step] at decoded
    cases decoded
  · rw [step] at decoded ⊢
    exact ⟨⟨_, finishStep_ok decoded⟩, rfl⟩
  · rw [step] at decoded ⊢
    exact ⟨⟨_, finishStep_ok decoded⟩, rfl⟩

/-- What a step that succeeds gives: the instruction at its address, as long as its reading. -/
theorem decode_ok {table : FormatTable} {address : BitAddress} {state : DecoderState}
    {instruction : Instruction}
    (decoded : (decode table address state).outcome = .ok instruction)
    : instruction.address = address
      ∧ instruction.length
        = (Reading.ofImage table state.image state.mode address).length := by
  rcases decode_ok_cases decoded with ⟨-, ⟨_, _, -, -, rfl, -⟩ | ⟨-, rfl, -⟩⟩
  · exact ⟨Reading.ofImage_address .., rfl⟩
  · exact ⟨Reading.ofImage_address .., rfl⟩

/-- Why a step fails: the target of a branch cannot be named, or the instruction is shorter than a
byte.
-/
theorem decode_error {table : FormatTable} {address : BitAddress} {state : DecoderState}
    {cause : DecodeError} (failed : (decode table address state).outcome = .error cause)
    : let reading := Reading.ofImage table state.image state.mode address
      (∃ target error,
        reading.operand = .branch target
        ∧ state.symbols.label target
            (some (labelLetter (reading.taggedImage state.image) target)) 0 = .error error
        ∧ cause = .symbol error)
      ∨ (cause = .tooShort address ∧ reading.length < 8) := by
  have short {image : Image} {symbols : SymbolTable} {label : String} {added : Option Symbol}
      (outcome : (finishStep (Reading.ofImage table state.image state.mode address) image symbols
        label added).outcome = .error cause)
      : cause = .tooShort address
        ∧ (Reading.ofImage table state.image state.mode address).length < 8 := by
    simp only [finishStep, Reading.ofImage_address] at outcome
    split at outcome
    · rename_i byte
      exact ⟨(Except.error.inj outcome).symm, byte⟩
    · cases outcome
  rcases decode_cases table address state with
    ⟨target, error, operand, refused, step⟩ | ⟨_, _, -, -, step⟩ | ⟨-, step⟩
  · rw [step] at failed
    exact .inl ⟨target, error, operand, refused, (Except.error.inj failed).symm⟩
  · rw [step] at failed
    exact .inr (short failed)
  · rw [step] at failed
    exact .inr (short failed)

namespace Disassembly

/-- Steps of the first pass in turn: as long as the end has not been reached, an instruction is
decoded where the one before it ended. The last address and state are those after the steps.
-/
inductive Passes (table : FormatTable) (finish : BitAddress)
    : BitAddress → DecoderState → List Instruction → BitAddress → DecoderState → Prop
  | none (address : BitAddress) (state : DecoderState)
    : Passes table finish address state [] address state
  | next {address state instruction rest stop final} (inside : address < finish)
    (decoded : (decode table address state).outcome = .ok instruction)
    (later : Passes table finish instruction.finish (decode table address state).state rest
      stop final)
    : Passes table finish address state (instruction :: rest) stop final

/-- How a run relates to the steps it has made: it has reached the end, or the step at the last
address failed, or it has made as many steps as it may.
-/
inductive Run.Ends (run : Run) (table : FormatTable) (finish : BitAddress) (bound : Nat)
    (decoded : List Instruction) (stop : BitAddress) (final : DecoderState) : Prop
  | reached (outside : ¬ stop < finish) (error : run.error = none) (state : run.state = final)
  | failed (inside : stop < finish) {cause : DecodeError}
    (outcome : (decode table stop final).outcome = .error cause) (error : run.error = some cause)
    (state : run.state = (decode table stop final).state)
  | exhausted (inside : stop < finish) (count : decoded.length = bound)
    (error : run.error = some (.unfinished stop)) (state : run.state = final)

/-- A run adds to what was decoded before it the instructions of its steps, by induction on the
bound.
-/
theorem decodeFrom_passes (table : FormatTable) (finish : BitAddress) (bound : Nat)
    (address : BitAddress) (state : DecoderState) (instructions : Array Instruction)
    (notices : Array Notice)
    : let run := decodeFrom table finish bound address state instructions notices
      ∃ decoded stop final,
        run.instructions.toList = instructions.toList ++ decoded
        ∧ Passes table finish address state decoded stop final
        ∧ run.Ends table finish bound decoded stop final := by
  induction bound generalizing address state instructions notices with
  | zero =>
      unfold decodeFrom
      by_cases inside : address < finish
      · rw [if_pos inside]
        exact ⟨[], address, state, by simp, .none address state, .exhausted inside rfl rfl rfl⟩
      · rw [if_neg inside]
        exact ⟨[], address, state, by simp, .none address state, .reached inside rfl rfl⟩
  | succ bound ih =>
      unfold decodeFrom
      by_cases inside : address < finish
      · rw [if_pos inside]
        dsimp only
        cases outcome : (decode table address state).outcome with
        | error cause =>
            exact ⟨[], address, state, by simp, .none address state,
              .failed inside outcome rfl rfl⟩
        | ok instruction =>
            obtain ⟨decoded, stop, final, added, passes, ends⟩ :=
              ih instruction.finish (decode table address state).state
                (instructions.push instruction)
                (notices ++ (decode table address state).notices.toArray)
            refine ⟨instruction :: decoded, stop, final, ?_, .next inside outcome passes, ?_⟩
            · rw [added, Array.toList_push, List.append_assoc, List.singleton_append]
            · cases ends with
              | reached outside error state => exact .reached outside error state
              | failed inside outcome error state => exact .failed inside outcome error state
              | exhausted inside count error state =>
                  exact .exhausted inside (by rw [List.length_cons, count]) error state
      · rw [if_neg inside]
        exact ⟨[], address, state, by simp, .none address state, .reached inside rfl rfl⟩

/-- What a step preserves holds after all steps, by induction on them. -/
theorem Passes.preserves {table : FormatTable} {finish address stop : BitAddress}
    {state final : DecoderState} {decoded : List Instruction} {holds : DecoderState → Prop}
    (passes : Passes table finish address state decoded stop final)
    (step : ∀ address state, holds state → holds (decode table address state).state)
    (start : holds state)
    : holds final := by
  induction passes with
  | none => exact start
  | next _ _ _ ih => exact ih (step _ _ start)

/-- What each step carries on to one more instruction holds of all instructions in the end, by
induction on the steps with what was decoded before them.
-/
theorem Passes.accumulates {table : FormatTable} {finish address stop : BitAddress}
    {state final : DecoderState} {decoded : List Instruction}
    (passes : Passes table finish address state decoded stop final)
    (holds : List Instruction → BitAddress → DecoderState → Prop)
    (step : ∀ before address state instruction, address < finish
      → (decode table address state).outcome = .ok instruction
      → holds before address state
      → holds (before ++ [instruction]) instruction.finish (decode table address state).state)
    {before : List Instruction} (start : holds before address state)
    : holds (before ++ decoded) stop final := by
  induction passes generalizing before with
  | none =>
      rw [List.append_nil]
      exact start
  | @next address state instruction rest _ _ inside outcome _ ih =>
      have later := ih (step before address state instruction inside outcome start)
      rw [List.append_assoc, List.singleton_append] at later
      exact later

end Disassembly

end SpeechRom
