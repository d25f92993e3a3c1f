import SpeechRom.Proofs.Decode.Steps
import SpeechRom.Proofs.Image.Tags

/-! The first pass comes to an end, and its instructions tile the image: each starts where the one
before it ended. Where the image ends at least 136 bits below the top of the address space, the
longest instruction cannot carry the cursor around it.
-/

namespace SpeechRom

/-- Instructions without gaps from one bit to another: each starts below the limit where the one
before it ended, has at least a byte, and ends where its length says.
-/
def Tiles (limit : Nat) : Nat → List Instruction → Nat → Prop
  | start, [], stop => start = stop
  | start, instruction :: rest, stop =>
    instruction.address.toNat = start
    ∧ start < limit
    ∧ 8 ≤ instruction.length.toNat
    ∧ instruction.finish.toNat = start + instruction.length.toNat
    ∧ Tiles limit instruction.finish.toNat rest stop

/-- Tiles take up at least a byte each. -/
theorem Tiles.length_le {limit start stop : Nat} {instructions : List Instruction}
    (tiles : Tiles limit start instructions stop)
    : start + 8 * instructions.length ≤ stop := by
  induction instructions generalizing start with
  | nil => exact Nat.le_of_eq tiles
  | cons instruction rest ih =>
      obtain ⟨-, -, long, ends, later⟩ := tiles
      have bound := ih later
      simp only [List.length_cons]
      omega

/-- Tiles that reach the limit are missing only where there is nothing below it. -/
theorem Tiles.eq_nil_iff {limit start stop : Nat} {instructions : List Instruction}
    (tiles : Tiles limit start instructions stop) (past : limit ≤ stop)
    : instructions = [] ↔ limit ≤ start := by
  cases instructions with
  | nil =>
      have same : start = stop := tiles
      exact ⟨fun _ => by omega, fun _ => rfl⟩
  | cons first rest =>
      have inside : start < limit := tiles.2.1
      exact ⟨fun empty => (List.cons_ne_nil _ _ empty).elim, fun above => by omega⟩

/-- Tiles end where the last of them ends. -/
theorem Tiles.last {limit stop : Nat} {start : BitAddress} {instructions : List Instruction}
    (tiles : Tiles limit start.toNat instructions stop)
    : ((instructions.getLast?.map (·.finish)).getD start).toNat = stop := by
  induction instructions generalizing start with
  | nil => exact tiles
  | cons instruction rest ih =>
      obtain ⟨-, -, -, -, later⟩ := tiles
      have last := ih later
      rw [List.getLast?_cons]
      cases found : rest.getLast? with
      | none =>
          rw [found] at last
          exact last
      | some final =>
          rw [found] at last
          exact last

/-- Every tile ends where its length says. -/
theorem Tiles.finish_eq {limit start stop : Nat} {instructions : List Instruction}
    (tiles : Tiles limit start instructions stop)
    : ∀ instruction ∈ instructions,
        instruction.finish.toNat = instruction.address.toNat + instruction.length.toNat := by
  induction instructions generalizing start with
  | nil => exact fun _ member => absurd member List.not_mem_nil
  | cons instruction rest ih =>
      obtain ⟨rfl, -, -, ends, later⟩ := tiles
      exact List.forall_mem_cons.mpr ⟨ends, ih later⟩

/-- Tiles leave no bit out. -/
theorem Tiles.exists_mem {limit start stop bit : Nat} {instructions : List Instruction}
    (tiles : Tiles limit start instructions stop) (above : start ≤ bit) (below : bit < stop)
    : ∃ instruction ∈ instructions,
        instruction.address.toNat ≤ bit ∧ bit < instruction.finish.toNat := by
  induction instructions generalizing start with
  | nil =>
      obtain rfl : start = stop := tiles
      omega
  | cons first rest ih =>
      obtain ⟨rfl, -, -, -, later⟩ := tiles
      by_cases inside : bit < first.finish.toNat
      · exact ⟨first, List.mem_cons_self, above, inside⟩
      · obtain ⟨instruction, member, covers⟩ := ih later (Nat.not_lt.mp inside)
        exact ⟨instruction, List.mem_cons_of_mem first member, covers⟩

namespace Annotations

/-- Annotations change nothing but tags, by induction on them. -/
theorem tagImage_sameBits (image : Image) (annotations : Annotations)
    : (annotations.tagImage image).SameBits image := by
  unfold tagImage
  induction annotations generalizing image with
  | nil => exact .refl image
  | cons annotation rest ih =>
      refine (ih (tagOne image annotation)).trans ?_
      cases annotation with
      | code | operand | symbol => exact Image.addTags_sameBits ..
      | data => exact (Image.addTags_sameBits ..).trans (Image.addTags_sameBits ..)
      | origin => exact .refl image

end Annotations

namespace Disassembly

/-- An image of a ROM is a blank image with its bytes. -/
theorem imageOf_ok {rom : Bytes} {origin : BitAddress} {image : Image}
    (made : imageOf rom origin = .ok image)
    : 8 * rom.size < 4294967296
      ∧ ∃ blank,
          Image.create origin (UInt32.ofNat (8 * rom.size)) = .ok blank
          ∧ image = blank.load rom := by
  unfold imageOf at made
  split at made
  · rename_i small
    split at made
    · cases made
    · rename_i blank created
      exact ⟨small, blank, created, (Except.ok.inj made).symm⟩
  · cases made

/-- A disassembly that could be set up has the image of the ROM with the tags of the annotations,
and the symbols of the annotations.
-/
theorem setup_ok {rom : Bytes} {annotations : Option Annotations} {settings : Settings}
    {disassembly : Disassembly}
    (accepted : (setup rom annotations settings).outcome = .ok disassembly)
    : ∃ image,
        imageOf rom (BitAddress.ofByte (originByte annotations settings)) = .ok image
        ∧ disassembly.image = (annotations.getD []).tagImage image
        ∧ disassembly.symbols
          = ((annotations.getD []).defineSymbols
              { commentChar := settings.commentChar }).table := by
  simp only [setup, Sp0256.validate_table] at accepted
  split at accepted
  · cases accepted
  rename_i image made
  split at accepted
  · cases accepted
  obtain rfl := Except.ok.inj accepted
  exact ⟨image, made, rfl, rfl⟩

/-- But for its tags, the image of a disassembly that could be set up is a blank image of the size
of the ROM with the bytes of the ROM.
-/
theorem setup_bits {rom : Bytes} {annotations : Option Annotations} {settings : Settings}
    {disassembly : Disassembly}
    (accepted : (setup rom annotations settings).outcome = .ok disassembly)
    : ∃ blank,
        Image.create disassembly.origin (UInt32.ofNat (8 * rom.size)) = .ok blank
        ∧ (UInt32.ofNat (8 * rom.size)).toNat = 8 * rom.size
        ∧ disassembly.image.SameBits (blank.load rom) := by
  obtain ⟨image, made, tagged, -⟩ := setup_ok accepted
  obtain ⟨small, blank, created, rfl⟩ := imageOf_ok made
  have bits := (annotations.getD []).tagImage_sameBits (blank.load rom)
  rw [← tagged] at bits
  have start : disassembly.origin = BitAddress.ofByte (originByte annotations settings) :=
    bits.origin.trans (Image.create_ok created).1
  exact ⟨blank, start ▸ created, UInt32.toNat_ofNat_of_lt small, bits⟩

/-- A disassembly that could be set up covers exactly the bits of its ROM. -/
theorem setup_sizeBits {rom : Bytes} {annotations : Option Annotations} {settings : Settings}
    {disassembly : Disassembly}
    (accepted : (setup rom annotations settings).outcome = .ok disassembly)
    : disassembly.image.sizeBits.toNat = 8 * rom.size := by
  obtain ⟨blank, created, size, bits⟩ := setup_bits accepted
  obtain ⟨-, sizeBits, -, -⟩ := Image.create_ok created
  rw [bits.sizeBits, ← size, ← sizeBits]
  rfl

/-- The first bit after the ROM lies in the image or at its end, so it is not wrapped. -/
theorem toNat_romFinish (disassembly : Disassembly)
    : disassembly.romFinish.toNat
        = disassembly.origin.toNat + disassembly.image.sizeBits.toNat
      ∧ disassembly.romFinish.toNat ≤ disassembly.image.finish.toNat := by
  have top := disassembly.image.below_top
  have words := disassembly.image.words_size
  have sum : disassembly.romFinish.toNat
      = disassembly.origin.toNat + disassembly.image.sizeBits.toNat :=
    BitAddress.toNat_add_of_lt (by omega)
  refine ⟨sum, ?_⟩
  rw [sum, Image.toNat_finish, origin]
  omega

/-- An instruction ends as far behind its address as it is long, or it sticks out past the top: then
it ends less than 136 bits above the bottom.
-/
theorem decode_finish_or_wrap {address : BitAddress} {state : DecoderState}
    {instruction : Instruction}
    (decoded : (decode Sp0256.table address state).outcome = .ok instruction)
    : (8 ≤ instruction.length.toNat
        ∧ instruction.finish.toNat = address.toNat + instruction.length.toNat)
      ∨ (4294967296 - 136 ≤ address.toNat ∧ instruction.finish.toNat < 136) := by
  obtain ⟨place, length⟩ := decode_ok decoded
  have bounds := Reading.ofImage_sp0256_length state.image state.mode address
  have top := address.toNat_lt
  have sum := BitAddress.toNat_add address instruction.length
  rw [← length] at bounds
  rw [Instruction.finish, place]
  omega

/-- With room below the top, an instruction ends as far behind its address as it is long. -/
theorem decode_finish {address : BitAddress} {state : DecoderState} {instruction : Instruction}
    (decoded : (decode Sp0256.table address state).outcome = .ok instruction)
    (room : address.toNat + 136 < 4294967296)
    : 8 ≤ instruction.length.toNat
      ∧ instruction.finish.toNat = address.toNat + instruction.length.toNat := by
  rcases decode_finish_or_wrap decoded with ends | ⟨high, -⟩
  · exact ends
  · omega

/-- Steps tile the bits that they pass over, up to the first instruction that sticks out past the
top, if there is one. Witness: induction on the steps, each of which ends behind its start or wraps.
-/
theorem Passes.tiles_or_wraps {finish address stop : BitAddress} {state final : DecoderState}
    {instructions : List Instruction}
    (passes : Passes Sp0256.table finish address state instructions stop final)
    : Tiles finish.toNat address.toNat instructions stop.toNat
      ∨ ∃ before wrapping after,
          instructions = before ++ wrapping :: after
          ∧ Tiles finish.toNat address.toNat before wrapping.address.toNat
          ∧ wrapping.address < finish
          ∧ 4294967296 - 136 ≤ wrapping.address.toNat
          ∧ wrapping.finish.toNat < 136 := by
  induction passes with
  | none => exact .inl rfl
  | @next address state instruction rest stop final inside decoded _ ih =>
      have place := (decode_ok decoded).1
      rcases decode_finish_or_wrap decoded with ⟨long, ends⟩ | ⟨high, low⟩
      · have tile : instruction.address.toNat = address.toNat ∧ address.toNat < finish.toNat :=
          ⟨congrArg BitAddress.toNat place, BitAddress.lt_iff.mp inside⟩
        rcases ih with later | ⟨before, wrapping, after, rfl, later, wraps⟩
        · exact .inl ⟨tile.1, tile.2, long, ends, later⟩
        · exact .inr ⟨instruction :: before, wrapping, after, rfl,
            ⟨tile.1, tile.2, long, ends, later⟩, wraps⟩
      · exact .inr ⟨[], instruction, rest, rfl, congrArg BitAddress.toNat place.symm,
          place ▸ inside, place ▸ high, low⟩

/-- With room below the top, steps tile the bits that they pass over. -/
theorem Passes.tiles {finish address stop : BitAddress} {state final : DecoderState}
    {instructions : List Instruction}
    (passes : Passes Sp0256.table finish address state instructions stop final)
    (room : finish.toNat ≤ 4294967296 - 136)
    : Tiles finish.toNat address.toNat instructions stop.toNat := by
  rcases passes.tiles_or_wraps with tiles | ⟨_, wrapping, _, -, -, below, high, -⟩
  · exact tiles
  · rw [BitAddress.lt_iff] at below
    omega

/-- How the first pass relates to the steps it has made: it has reached the end, or the step at the
last address failed, or it has made one step for each byte of the ROM.
-/
theorem decodeAll_passes (disassembly : Disassembly)
    : let decoding := disassembly.decodeAll
      ∃ stop final,
        Passes Sp0256.table disassembly.romFinish disassembly.origin disassembly.startState
          decoding.disassembly.instructions.toList stop final
        ∧ ((¬ stop < disassembly.romFinish
            ∧ decoding.outcome = .ok decoding.disassembly.instructions.size
            ∧ decoding.disassembly.image = final.image
            ∧ decoding.disassembly.symbols = final.symbols)
          ∨ (∃ error,
              stop < disassembly.romFinish
              ∧ decoding.outcome = .error error
              ∧ (decode Sp0256.table stop final).outcome = .error error
              ∧ decoding.disassembly.image = (decode Sp0256.table stop final).state.image
              ∧ decoding.disassembly.symbols
                = (decode Sp0256.table stop final).state.symbols)
          ∨ (stop < disassembly.romFinish
            ∧ decoding.outcome = .error (.unfinished stop)
            ∧ decoding.disassembly.instructions.toList.length = disassembly.romBytes)) := by
  obtain ⟨decoded, stop, final, added, passes, ends⟩ :=
    decodeFrom_passes Sp0256.table disassembly.romFinish disassembly.romBytes
      disassembly.image.origin disassembly.startState #[] #[]
  simp only [List.nil_append] at added
  dsimp only [decodeAll]
  cases ends with
  | reached outside error state =>
      rw [error]
      exact ⟨stop, final, added ▸ passes, .inl ⟨outside, rfl, by rw [state], by rw [state]⟩⟩
  | failed inside outcome error state =>
      rw [error]
      exact ⟨stop, final, added ▸ passes,
        .inr (.inl ⟨_, inside, rfl, outcome, by rw [state], by rw [state]⟩)⟩
  | exhausted inside count error state =>
      rw [error]
      exact ⟨stop, final, added ▸ passes, .inr (.inr ⟨inside, rfl, added ▸ count⟩)⟩

/-- The first pass ends by itself: with one step for each byte of the ROM it has reached the end or
met an instruction that cannot be decoded, since each step covers at least a byte.
-/
theorem decodeAll_ends (disassembly : Disassembly)
    (room : disassembly.image.finish.toNat ≤ 4294967296 - 136)
    : let decoding := disassembly.decodeAll
      ∃ stop final,
        Passes Sp0256.table disassembly.romFinish disassembly.origin disassembly.startState
          decoding.disassembly.instructions.toList stop final
        ∧ ((¬ stop < disassembly.romFinish
            ∧ decoding.outcome = .ok decoding.disassembly.instructions.size
            ∧ decoding.disassembly.image = final.image
            ∧ decoding.disassembly.symbols = final.symbols)
          ∨ (∃ error,
              stop < disassembly.romFinish
              ∧ decoding.outcome = .error error
              ∧ (decode Sp0256.table stop final).outcome = .error error
              ∧ decoding.disassembly.image = (decode Sp0256.table stop final).state.image
              ∧ decoding.disassembly.symbols
                = (decode Sp0256.table stop final).state.symbols)) := by
  obtain ⟨stop, final, passes, reached | failed | ⟨inside, -, count⟩⟩ :=
    disassembly.decodeAll_passes
  · exact ⟨stop, final, passes, .inl reached⟩
  · exact ⟨stop, final, passes, .inr failed⟩
  · -- With one tile for each byte the cursor would be past the last of them.
    obtain ⟨sum, below⟩ := disassembly.toNat_romFinish
    have long := (passes.tiles (by omega)).length_le
    have inside := BitAddress.lt_iff.mp inside
    simp only [romBytes] at count
    omega

/-- A first pass that succeeds is made of steps up to the end of the ROM. -/
theorem decodeAll_ok {disassembly : Disassembly} {count : Nat}
    (succeeded : disassembly.decodeAll.outcome = .ok count)
    : let decoded := disassembly.decodeAll.disassembly
      ∃ stop final,
        Passes Sp0256.table disassembly.romFinish disassembly.origin disassembly.startState
          decoded.instructions.toList stop final
        ∧ ¬ stop < disassembly.romFinish
        ∧ decoded.image = final.image
        ∧ decoded.symbols = final.symbols
        ∧ count = decoded.instructions.size := by
  obtain ⟨stop, final, passes, ⟨outside, counted, image, symbols⟩ | ⟨_, -, failed, -⟩
      | ⟨-, failed, -⟩⟩ := disassembly.decodeAll_passes
  · exact ⟨stop, final, passes, outside, image, symbols,
      Except.ok.inj (succeeded.symm.trans counted)⟩
  · cases failed.symm.trans succeeded
  · cases failed.symm.trans succeeded

/-- A first pass with a count has succeeded. -/
theorem outcome_of_count {disassembly : Disassembly} {count : Nat}
    (counted : disassembly.decodeAll.outcome.toOption = some count)
    : disassembly.decodeAll.outcome = .ok count := by
  cases outcome : disassembly.decodeAll.outcome with
  | error cause =>
      rw [outcome] at counted
      cases counted
  | ok other =>
      rw [outcome] at counted
      exact congrArg Except.ok (Option.some.inj counted)

/-- The first pass over a ROM comes to an end. If it succeeds, it counts its instructions, and they
tile the ROM from its first bit to its last or past it, with none only for the empty ROM. If it
fails, those before the failure tile the bits up to the address whose instruction could not be
decoded.
-/
theorem decodeAll_tiles {rom : Bytes} {annotations : Option Annotations} {settings : Settings}
    {disassembly : Disassembly}
    (accepted : (setup rom annotations settings).outcome = .ok disassembly)
    (room : disassembly.image.finish.toNat ≤ 4294967296 - 136)
    : let limit := disassembly.origin.toNat + 8 * rom.size
      let decoding := disassembly.decodeAll
      let instructions := decoding.disassembly.instructions.toList
      (∀ address, decoding.outcome ≠ .error (.unfinished address))
      ∧ ∃ stop final,
          Passes Sp0256.table disassembly.romFinish disassembly.origin disassembly.startState
            instructions stop final
          ∧ Tiles limit disassembly.origin.toNat instructions stop.toNat
          ∧ (∀ count, decoding.outcome = .ok count
              → count = instructions.length
                ∧ (instructions = [] ↔ rom.size = 0)
                ∧ limit ≤ stop.toNat)
          ∧ (∀ error, decoding.outcome = .error error
              → stop.toNat < limit
                ∧ (decode Sp0256.table stop final).outcome = .error error) := by
  intro limit decoding instructions
  have size := setup_sizeBits accepted
  obtain ⟨sum, below⟩ := disassembly.toNat_romFinish
  have limitEq : disassembly.romFinish.toNat = limit := by rw [sum, size]
  obtain ⟨stop, final, passes, ends⟩ := disassembly.decodeAll_ends room
  have tiles : Tiles limit disassembly.origin.toNat instructions stop.toNat :=
    limitEq ▸ passes.tiles (by omega)
  rcases ends with ⟨outside, succeeded, -, -⟩ | ⟨error, inside, failed, outcome, -, -⟩
  · have past : limit ≤ stop.toNat := by
      rw [BitAddress.lt_iff] at outside
      omega
    refine ⟨?_, stop, final, passes, tiles, ?_, ?_⟩
    · intro address stuck
      cases succeeded.symm.trans stuck
    · intro count counted
      refine ⟨(Except.ok.inj (succeeded.symm.trans counted)).symm, ?_, past⟩
      rw [tiles.eq_nil_iff past]
      omega
    · intro error failed
      cases succeeded.symm.trans failed
  · refine ⟨?_, stop, final, passes, tiles, ?_, ?_⟩
    · intro address stuck
      obtain rfl := Except.error.inj (failed.symm.trans stuck)
      -- A step has its own ways to fail; running out of steps is none of them.
      rcases decode_error outcome with ⟨_, _, -, -, cause⟩ | ⟨cause, -⟩
      · cases cause
      · cases cause
    · intro count succeeded
      cases failed.symm.trans succeeded
    · intro other otherFailed
      obtain rfl := Except.error.inj (failed.symm.trans otherFailed)
      refine ⟨?_, outcome⟩
      rw [BitAddress.lt_iff] at inside
      omega

/-- A jump of 16 bits, the setting of the mode and a pause tile their four bytes. -/
theorem decodeAll_tiles_jump
    : ∃ disassembly,
        (setup #[0x07, 0x04, 0x08, 0x0F] none {}).outcome = .ok disassembly
        ∧ disassembly.image.finish.toNat ≤ 4294967296 - 136
        ∧ ∃ stop final,
            Passes Sp0256.table disassembly.romFinish disassembly.origin disassembly.startState
              disassembly.decodeAll.disassembly.instructions.toList stop final
            ∧ Tiles (disassembly.origin.toNat + 8 * 4) disassembly.origin.toNat
                disassembly.decodeAll.disassembly.instructions.toList stop.toNat := by
  obtain ⟨disassembly, accepted, room⟩
      : ∃ disassembly,
          (setup #[0x07, 0x04, 0x08, 0x0F] none {}).outcome = .ok disassembly
          ∧ disassembly.image.finish.toNat ≤ 4294967296 - 136 :=
    ⟨_, rfl, by decide⟩
  obtain ⟨-, stop, final, passes, tiles, -⟩ := decodeAll_tiles accepted room
  exact ⟨disassembly, accepted, room, stop, final, passes, tiles⟩

end Disassembly

end SpeechRom
