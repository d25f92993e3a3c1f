import SpeechRom.Proofs.Decode.Replay
import SpeechRom.Proofs.Image.Bytes
import SpeechRom.Proofs.Listing.Captions
import SpeechRom.Proofs.Listing.Rows

/-! The listing shows every bit of the ROM. Instructions tile the bits that they pass over, each of
them shows as many as it is long, and past the end of the ROM there are only zeros to show.
-/

namespace SpeechRom

-----------------------------------------------------------------------------------------
-- Bits of a ROM
-----------------------------------------------------------------------------------------

/-- The bits of bytes as digits, each byte with its most significant bit first. -/
def Bytes.digits (bytes : Bytes) : List Char :=
  bytes.toList.flatMap fun byte => Text.binaryChars 8 byte.toNat

theorem Bytes.digits_eq (bytes : Bytes)
    : bytes.digits
      = (List.range bytes.size).flatMap fun index =>
          Text.binaryChars 8 (bytes.toList.getD index 0).toNat := by
  have indexed : bytes.toList = (List.range bytes.size).map (bytes.toList.getD · 0) := by
    refine List.ext_getElem (by simp) fun index inside _ => ?_
    rw [List.getElem_map, List.getElem_range, List.getD_eq_getElem?_getD,
      List.getElem?_eq_getElem inside, Option.getD_some]
  rw [digits, indexed, List.flatMap_map, ← indexed]

namespace Image

/-- The digits of a loaded image are those of the file and zeros after them. Witness: the run of the
file is cut into pieces of eight bits, one for each byte.
-/
theorem digitsFrom_load {origin : BitAddress} {sizeBits : UInt32} {blank : Image} {bytes : Bytes}
    (created : create origin sizeBits = .ok blank) (fits : 8 * bytes.size ≤ sizeBits.toNat)
    (extra : Nat)
    : (blank.load bytes).digitsFrom origin.toNat (8 * bytes.size + extra)
      = bytes.digits ++ List.replicate extra '0' := by
  rw [digitsFrom_add]
  congr 1
  · have pieces := (blank.load bytes).digitsFrom_pieces origin.toNat 8 (8 * bytes.size) bytes.size
    rw [Nat.min_self] at pieces
    rw [← pieces, bytes.digits_eq]
    refine List.flatMap_congr fun index member => ?_
    have inside := List.mem_range.mp member
    have whole : min 8 (8 * bytes.size - 8 * index) = 8 := by omega
    rw [whole]
    refine List.map_congr_left fun place bit => ?_
    have small := List.mem_range.mp bit
    have byte : (8 * index + place) / 8 = index := by omega
    have last : 7 - (8 * index + place) % 8 = 8 - 1 - place := by omega
    rw [Nat.add_assoc, bitAt_load created fits, byte, last, toNat_byteAt]
  · refine List.eq_replicate_iff.mpr ⟨by rw [digitsFrom, List.length_map, List.length_range], ?_⟩
    intro digit member
    obtain ⟨place, -, rfl⟩ := List.mem_map.mp member
    rw [Nat.add_assoc, bitAt_load created fits, byteAt_eq_zero (by omega)]
    simp

end Image

-----------------------------------------------------------------------------------------
-- Bits of instructions
-----------------------------------------------------------------------------------------

/-- The fields of an instruction have at least as many bits as the instruction, which has no more
than the longest one of the processor.
-/
structure Instruction.Covered (instruction : Instruction) : Prop where
  enough : instruction.length.toNat ≤ placedBits (instruction.format.place instruction.address)
  short : instruction.length.toNat ≤ 136

theorem Instruction.Covered.sumsFit {instruction : Instruction} (covered : instruction.Covered)
    : instruction.SumsFit := by
  have short := covered.short
  rw [Instruction.SumsFit]
  omega

/-- A decoded instruction is covered by its fields: the setting of the page has a byte, as the
shortest format has, and any other instruction is as long as its format.
-/
theorem decode_covered {address : BitAddress} {state : DecoderState} {instruction : Instruction}
    (outcome : (decode Sp0256.table address state).outcome = .ok instruction)
    : instruction.Covered := by
  obtain ⟨⟨label, rfl⟩, -⟩ := decode_ok_reading outcome
  refine ⟨?_, (Reading.ofImage_sp0256_length state.image state.mode address).2⟩
  simp only [Reading.instruction, Reading.ofImage_address]
  have bits := placedLength_le
    ((Reading.ofImage Sp0256.table state.image state.mode address).format.place address)
  rcases Reading.ofImage_length Sp0256.table state.image state.mode address with
    ⟨byte, -, -⟩ | length
  · have least := (Sp0256.length_bounds
      (Reading.ofImage Sp0256.table state.image state.mode address).opcode
      (FormatTable.modeOf state.mode.operandMode) address).1
    rw [← Reading.ofImage_format] at least
    rw [byte]
    exact least.trans bits
  · rw [length]
    exact bits

theorem Disassembly.Passes.covered {finish address stop : BitAddress} {state final : DecoderState}
    {decoded : List Instruction}
    (passes : Passes Sp0256.table finish address state decoded stop final)
    : ∀ instruction ∈ decoded, instruction.Covered := by
  induction passes with
  | none => exact fun _ member => absurd member List.not_mem_nil
  | next _ outcome _ ih => exact List.forall_mem_cons.mpr ⟨decode_covered outcome, ih⟩

/-- The printed rows of an instruction show as many bits as it is long. -/
theorem Instruction.Covered.digitsOfLine {instruction : Instruction}
    (covered : instruction.Covered)
    (room : instruction.address.toNat + instruction.length.toNat ≤ 4294967296) (image : Image)
    (commentChar : Char)
    : ((FieldRow.ofInstruction image instruction).map (·.line commentChar)).flatMap
          FieldRow.digitsOfLine
      = image.digitsFrom instruction.address.toNat instruction.length.toNat := by
  have digits := FieldRow.digits_shownRows image instruction.length.toNat 0
    (instruction.format.place instruction.address)
  rw [Nat.sub_zero, FieldRow.take_fieldDigits image _ room, Nat.min_eq_right covered.enough,
    ← FieldRow.ofInstruction_eq_shownRows image covered.sumsFit] at digits
  rw [← digits, FieldRow.ofInstruction, FieldRow.digitsOfLine_ofFields]

/-- The printed rows of tiles show the bits that the tiles pass over, by induction on them. -/
theorem Tiles.digitsOfLine {limit start stop : Nat} {instructions : List Instruction}
    (tiles : Tiles limit start instructions stop)
    (covered : ∀ instruction ∈ instructions, instruction.Covered) (image : Image)
    (commentChar : Char)
    : (instructions.flatMap fun instruction =>
          (FieldRow.ofInstruction image instruction).map (·.line commentChar)).flatMap
          FieldRow.digitsOfLine
      = image.digitsFrom start (stop - start) := by
  induction instructions generalizing start with
  | nil =>
      obtain rfl : start = stop := tiles
      rw [Nat.sub_self]
      rfl
  | cons instruction rest ih =>
      obtain ⟨place, -, -, ends, later⟩ := tiles
      obtain ⟨first, others⟩ := List.forall_mem_cons.mp covered
      have top := instruction.finish.toNat_lt
      have behind := later.length_le
      have total : stop - start
          = instruction.length.toNat + (stop - instruction.finish.toNat) := by omega
      rw [List.flatMap_cons, List.flatMap_append, ih later others,
        first.digitsOfLine (by omega), total, Image.digitsFrom_add, place, ends]

namespace Disassembly

/-- The digits of the image of a ROM are those of the ROM and zeros after them. -/
theorem setup_digits {rom : Bytes} {annotations : Option Annotations} {settings : Settings}
    {disassembly : Disassembly}
    (accepted : (setup rom annotations settings).outcome = .ok disassembly) (extra : Nat)
    : disassembly.image.digitsFrom disassembly.origin.toNat (8 * rom.size + extra)
      = rom.digits ++ List.replicate extra '0' := by
  obtain ⟨blank, created, size, bits⟩ := setup_bits accepted
  rw [bits.digitsFrom]
  exact Image.digitsFrom_load created (Nat.le_of_eq size.symm) extra

/-- The listing loses nothing. Below its heading it has one block for each instruction: the names of
the address, the line of the instruction and its printed rows. The digits read off all printed rows
in turn are the bits of the ROM and zeros after them, up to the end of the last instruction.
-/
theorem render_shows_rom {rom : Bytes} {annotations : Option Annotations} {settings : Settings}
    {disassembly : Disassembly} {count : Nat}
    (accepted : (setup rom annotations settings).outcome = .ok disassembly)
    (room : disassembly.image.finish.toNat ≤ 4294967296 - 136)
    (decoded : disassembly.decodeAll.outcome = .ok count)
    (listed : disassembly.decodeAll.disassembly.render.printed.error = none)
    : let first := disassembly.decodeAll.disassembly
      let rendered := first.render
      let commentChar := first.commentChar
      let instructions := first.instructions.toList
      let rows := fun instruction =>
        (FieldRow.ofInstruction first.image instruction).map (·.line commentChar)
      rendered.printed.lines
        = Listing.banner commentChar ++ instructions.flatMap (fun instruction =>
            Listing.caption commentChar
                ((rendered.disassembly.symbols.aliases instruction.address).map (·.name))
              ++ Listing.instructionLine commentChar instruction :: rows instruction)
      ∧ ∃ extra,
          (instructions.flatMap rows).flatMap FieldRow.digitsOfLine
            = rom.digits ++ List.replicate extra '0'
          ∧ ((instructions.getLast?.map (·.finish)).getD disassembly.origin).toNat
            = disassembly.origin.toNat + (8 * rom.size + extra) := by
  intro first rendered commentChar instructions rows
  obtain ⟨stop, final, passes, outside, image, symbols, -⟩ := decodeAll_ok decoded
  obtain ⟨sum, limit⟩ := disassembly.toNat_romFinish
  have size := setup_sizeBits accepted
  have tiles := passes.tiles (by omega)
  have bits : first.image.SameBits disassembly.image := image ▸ passes.sameBits
  constructor
  · obtain ⟨ledger, refines, -⟩ := (passes.notes (by omega) (setup_notes accepted)).noted
    rw [← symbols] at refines
    obtain ⟨after, -, lines⟩ := render_ok refines listed
    have names (address : BitAddress)
        : (rendered.disassembly.symbols.aliases address).map (·.name)
          = (ledger.run (Listing.allRequests first.image instructions)).namesAt address :=
      congrArg (List.map _) (after.aliases_eq address)
    simp only [names]
    exact lines
  · have past : disassembly.romFinish.toNat ≤ stop.toNat := by
      rw [BitAddress.lt_iff] at outside
      omega
    refine ⟨stop.toNat - disassembly.romFinish.toNat, ?_, ?_⟩
    · have run : stop.toNat - disassembly.origin.toNat
          = 8 * rom.size + (stop.toNat - disassembly.romFinish.toNat) := by omega
      rw [tiles.digitsOfLine passes.covered, bits.digitsFrom, run]
      exact setup_digits accepted _
    · rw [tiles.last]
      omega

/-- The setting of a page, a jump and an instruction of 15 bytes of which the ROM has two: the rows
show the five bytes of the ROM and 104 zeros.
-/
theorem render_shows_rom_overhang
    : ∃ disassembly count,
        (setup #[0x10, 0x07, 0x02, 0x81, 0xA5] none { origin := some 0x1000 }).outcome
          = .ok disassembly
        ∧ disassembly.image.finish.toNat ≤ 4294967296 - 136
        ∧ disassembly.decodeAll.outcome = .ok count
        ∧ disassembly.decodeAll.disassembly.render.printed.error = none
        ∧ let first := disassembly.decodeAll.disassembly
          (first.instructions.toList.flatMap fun instruction =>
              (FieldRow.ofInstruction first.image instruction).map
                (·.line first.commentChar)).flatMap FieldRow.digitsOfLine
            = "0001000000000111000000101000000110100101".toList ++ List.replicate 104 '0' := by
  obtain ⟨disassembly, accepted, room, decoded, listed, start, last⟩
      : ∃ disassembly,
          (setup #[0x10, 0x07, 0x02, 0x81, 0xA5] none { origin := some 0x1000 }).outcome
            = .ok disassembly
          ∧ disassembly.image.finish.toNat ≤ 4294967296 - 136
          ∧ disassembly.decodeAll.outcome.toOption = some 3
          ∧ disassembly.decodeAll.disassembly.render.printed.error = none
          ∧ disassembly.origin.toNat = 0x8000
          ∧ ((disassembly.decodeAll.disassembly.instructions.toList.getLast?.map
              (·.finish)).getD disassembly.origin).toNat = 0x8090 :=
    ⟨_, rfl, by decide, by decide +kernel, by decide +kernel, by decide, by decide +kernel⟩
  cases succeeded : disassembly.decodeAll.outcome with
  | error cause =>
      rw [succeeded] at decoded
      cases decoded
  | ok count =>
      obtain ⟨-, extra, digits, total⟩ := render_shows_rom accepted room succeeded listed
      have size : (#[0x10, 0x07, 0x02, 0x81, 0xA5] : Bytes).size = 5 := rfl
      obtain rfl : extra = 104 := by omega
      exact ⟨disassembly, count, accepted, room, succeeded, listed, digits⟩

end Disassembly

end SpeechRom
