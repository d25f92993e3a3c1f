import SpeechRom.Proofs.Listing.Rows

/-! Rows partition the beginning of an instruction. Counted in bits from its address, each row
starts where the one before it ended, belongs to one field and shows its bits in groups of four, up
to the end of the instruction or of its fields. Addresses wrap around the top of the address space
from row to row and from group to group, but the bits of one group are read without wrapping.
-/

namespace SpeechRom

-----------------------------------------------------------------------------------------
-- Places of fields
-----------------------------------------------------------------------------------------

theorem placedBits_append (front rear : List PlacedField)
    : placedBits (front ++ rear) = placedBits front + placedBits rear := by
  simp [placedBits]

/-- Each field of a format starts where those before it end, by induction on these. -/
theorem Format.start_place {format : Format} {address : BitAddress}
    {front rear : List PlacedField} {placed : PlacedField}
    (split : format.place address = front ++ placed :: rear)
    : placed.start = address + UInt32.ofNat (placedBits front) := by
  induction front generalizing format address with
  | nil =>
      cases format with
      | nil => cases split
      | cons field rest =>
          obtain ⟨rfl, -⟩ := List.cons.inj split
          exact address.add_zero.symm
  | cons first others ih =>
      cases format with
      | nil => cases split
      | cons field rest =>
          obtain ⟨rfl, later⟩ := List.cons.inj split
          have width : UInt32.ofNat (field.widthAt address).toNat = field.widthAt address :=
            UInt32.ofNat_toNat
          rw [ih later, placedBits_cons, ← BitAddress.add_ofNat, width]

-----------------------------------------------------------------------------------------
-- Digits
-----------------------------------------------------------------------------------------

namespace FieldRow

/-- The digit for a bit of an instruction, given by its place in a field that starts after so many
bits. It is the bit at its address, except that a group is read as one: what follows in it past the
top of the address space is shown as clear.
-/
def shownDigit (image : Image) (address : BitAddress) (before place : Nat) : Char :=
  if (address + UInt32.ofNat (before + 4 * (place / 4))).toNat + place % 4 < 4294967296
      ∧ image.bitAt (address + UInt32.ofNat (before + place)).toNat
    then '1' else '0'

theorem fieldDigit_eq_shownDigit (image : Image) (address : BitAddress) (before place : Nat)
    : fieldDigit image (address + UInt32.ofNat before) place
      = shownDigit image address before place := by
  have four : bitsPerGroup = 4 := rfl
  rw [fieldDigit, shownDigit, BitAddress.add_ofNat, four]
  obtain ⟨group, start⟩
      : ∃ group, address + UInt32.ofNat (before + 4 * (place / 4)) = group := ⟨_, rfl⟩
  have here : address + UInt32.ofNat (before + place) = group + UInt32.ofNat (place % 4) := by
    rw [← start, BitAddress.add_ofNat, Nat.add_assoc, Nat.div_add_mod]
  have rest : (UInt32.ofNat (place % 4)).toNat = place % 4 :=
    UInt32.toNat_ofNat_of_lt (show place % 4 < 4294967296 by omega)
  rw [here, start]
  by_cases below : group.toNat + place % 4 < 4294967296
  · rw [BitAddress.toNat_add_of_lt (by omega), rest]
    simp only [below, true_and]
  · rw [image.bitAt_past_top (by omega)]
    simp only [below, false_and]
    rfl

theorem getElem?_fieldDigits (image : Image) (front rear : List PlacedField)
    {placed : PlacedField} {place : Nat} (inside : place < placed.width.toNat)
    : (fieldDigits image (front ++ placed :: rear))[placedBits front + place]?
      = some (fieldDigit image placed.start place) := by
  have parts : fieldDigits image (front ++ placed :: rear)
      = fieldDigits image front
        ++ ((List.range placed.width.toNat).map (fieldDigit image placed.start)
          ++ fieldDigits image rear) := List.flatMap_append
  rw [parts, ← length_fieldDigits image front, List.getElem?_append_right (Nat.le_add_right ..),
    Nat.add_sub_cancel_left, List.getElem?_append_left (by simpa using inside)]
  simp [inside]

-----------------------------------------------------------------------------------------
-- Rows end to end
-----------------------------------------------------------------------------------------

/-- A row shows bits of an instruction with the given address and fields from an offset on. It has
between 1 and 24 digits, in groups of four of which only the last may be shorter, and lies within
one field, of which it is a continuation exactly when it does not start with it. The addresses that
are printed are those of its first and its last bit, and are read back.
-/
structure LiesAt (address : BitAddress) (fields : List PlacedField) (offset : Nat)
    (row : FieldRow)
    : Prop where
  start : row.start = address + UInt32.ofNat offset
  last : row.last = address + UInt32.ofNat (offset + row.digits.length - 1)
  filled : 1 ≤ row.digits.length ∧ row.digits.length ≤ 24
  grouped
    : row.groups
      = chunks 4 row.digits ++ List.replicate (6 - (row.digits.length + 3) / 4) []
  owned
    : ∃ front placed rear,
        fields = front ++ placed :: rear
        ∧ row.field = placed.field
        ∧ placedBits front ≤ offset
        ∧ offset + row.digits.length ≤ placedBits front + placed.width.toNat
        ∧ (row.isContinued ↔ placedBits front < offset)
  printed
    : ∀ commentChar,
        row.line commentChar
        = "    " ++ String.ofList row.columns ++ "  " ++ String.ofList [commentChar] ++ " "
          ++ (address + UInt32.ofNat offset).text ++ " .. "
          ++ (address + UInt32.ofNat (offset + row.digits.length - 1)).text ++ ":  "
          ++ row.field.name ++ (if row.field.isReversed then " (br)" else "")
          ++ (if row.isContinued then " (cont)" else "")
  told
    : ∀ commentChar,
        addressesOfLine? (row.line commentChar)
        = some (address + UInt32.ofNat offset,
            address + UInt32.ofNat (offset + row.digits.length - 1))

/-- Rows that lie end to end from one offset to another. -/
def EndToEnd (address : BitAddress) (fields : List PlacedField)
    : Nat → List FieldRow → Nat → Prop
  | offset, [], stop => offset = stop
  | offset, row :: rest, stop =>
    row.LiesAt address fields offset
    ∧ EndToEnd address fields (offset + row.digits.length) rest stop

theorem EndToEnd.append {address : BitAddress} {fields : List PlacedField}
    {offset middle stop : Nat} {rows more : List FieldRow}
    (first : EndToEnd address fields offset rows middle)
    (second : EndToEnd address fields middle more stop)
    : EndToEnd address fields offset (rows ++ more) stop := by
  induction rows generalizing offset with
  | nil =>
      obtain rfl : offset = middle := first
      exact second
  | cons row rest ih => exact ⟨first.1, ih first.2⟩

/-- The groups of a row are its digits in fours, and empty ones up to six. -/
theorem groupsOf_eq_chunks (image : Image) (start : BitAddress) {count : Nat}
    (small : count ≤ bitsPerRow)
    : groupsOf image start count
      = chunks 4 (groupsOf image start count).flatten
        ++ List.replicate (6 - (count + 3) / 4) [] := by
  have all : (groupsOf image start count).flatten
      = (List.range count).map (fieldDigit image start) := by
    rw [flatten_groupsOf, Nat.min_eq_left small]
  have length : ((List.range count).map (fieldDigit image start)).length = count := by simp
  have pieces := map_pieces_eq_chunks (by decide : 0 < 4)
    (length.trans_le (small.trans (by decide : bitsPerRow ≤ 4 * 6)))
  rw [length] at pieces
  rw [all]
  refine Eq.trans (List.map_congr_left fun group _ => ?_) pieces
  rw [take_drop_map_range]
  exact groupDigits_piece image start count group

section Field

variable {address : BitAddress} {fields front rear : List PlacedField} {placed : PlacedField}

/-- A row of a field lies where its number says. -/
theorem rowAt_liesAt (image : Image) (split : fields = front ++ placed :: rear)
    (start : placed.start = address + UInt32.ofNat (placedBits front)) {count row : Nat}
    (within : count ≤ placed.width.toNat) (begun : bitsPerRow * row < count)
    : (rowAt image placed count row).LiesAt address fields
        (placedBits front + bitsPerRow * row) := by
  have full : bitsPerRow = 24 := rfl
  have length : (rowAt image placed count row).digits.length
      = min bitsPerRow (count - bitsPerRow * row) := by
    rw [digits_rowAt, List.length_map, List.length_range]
  have place : (rowAt image placed count row).start
      = address + UInt32.ofNat (placedBits front + bitsPerRow * row) := by
    rw [← BitAddress.add_ofNat, ← start]
    rfl
  have ends : (rowAt image placed count row).last
      = address + UInt32.ofNat (placedBits front + bitsPerRow * row
          + (rowAt image placed count row).digits.length - 1) := by
    rw [FieldRow.last, place, BitAddress.add_ofNat, BitAddress.add_ofNat_sub_one _ (by omega)]
  refine ⟨place, ends, by omega, ?_,
    ⟨front, placed, rear, split, rfl, Nat.le_add_right .., by omega, ?_⟩, ?_, ?_⟩
  · rw [length]
    exact groupsOf_eq_chunks image _ (Nat.min_le_left ..)
  · have continued : (rowAt image placed count row).isContinued = (row != 0) := rfl
    rw [continued, bne_iff_ne, full]
    omega
  · intro commentChar
    rw [line_eq, ← place, ← ends]
  · intro commentChar
    have number : row < (count + bitsPerRow - 1) / bitsPerRow := by
      simp only [bitsPerRow] at begun ⊢
      omega
    have member : rowAt image placed count row ∈ ofField image placed count :=
      List.mem_map.mpr ⟨row, List.mem_range.mpr number, rfl⟩
    rw [(grouped_ofField member).addressesOfLine?_line, place, ends]

/-- The rows of a field lie end to end. Witness: induction on the number of rows, each of which has
a bit to show.
-/
theorem ofField_endToEnd (image : Image) (split : fields = front ++ placed :: rear)
    (start : placed.start = address + UInt32.ofNat (placedBits front)) {count : Nat}
    (within : count ≤ placed.width.toNat)
    : EndToEnd address fields (placedBits front) (ofField image placed count)
        (placedBits front + count) := by
  have rows (number : Nat) (needed : number ≤ (count + bitsPerRow - 1) / bitsPerRow)
      : EndToEnd address fields (placedBits front)
          ((List.range number).map (rowAt image placed count))
          (placedBits front + min count (bitsPerRow * number)) := by
    induction number with
    | zero => exact (congrArg (placedBits front + ·) (Nat.min_zero count)).symm
    | succ number ih =>
        have begun : bitsPerRow * number < count := by
          simp only [bitsPerRow] at needed ⊢
          omega
        rw [List.range_succ, List.map_append]
        refine (ih (by omega)).append ?_
        rw [Nat.min_eq_right (by omega)]
        refine ⟨rowAt_liesAt image split start within begun, ?_⟩
        change _ = _
        rw [digits_rowAt, List.length_map, List.length_range, Nat.mul_succ]
        omega
  have all := rows _ (Nat.le_refl _)
  rwa [rows_hold] at all

end Field

/-- The rows of fields lie end to end, up to the end of the instruction or of the fields. Witness:
induction on the fields that are left.
-/
theorem shownRows_endToEnd (image : Image) {address : BitAddress}
    {fields front rest : List PlacedField} (length : Nat)
    (starts : ∀ front placed rear, fields = front ++ placed :: rear
      → placed.start = address + UInt32.ofNat (placedBits front))
    (split : fields = front ++ rest)
    : EndToEnd address fields (min length (placedBits front))
        (shownRows image length (placedBits front) rest) (min length (placedBits fields)) := by
  induction rest generalizing front with
  | nil =>
      rw [split, List.append_nil]
      rfl
  | cons placed rear ih =>
      have later := ih (split.trans (List.append_cons ..))
      have next : placedBits (front ++ [placed]) = placedBits front + placed.width.toNat := by
        rw [placedBits_append]
        rfl
      rw [next] at later
      refine EndToEnd.append ?_ later
      by_cases ended : length ≤ placedBits front
      · rw [Nat.sub_eq_zero_of_le ended, Nat.min_zero]
        change _ = _
        omega
      · have here := ofField_endToEnd image split (starts front placed rear split)
          (Nat.min_le_left placed.width.toNat (length - placedBits front))
        rw [Nat.min_eq_right (by omega)]
        have stop : placedBits front + min placed.width.toNat (length - placedBits front)
            = min length (placedBits front + placed.width.toNat) := by omega
        rwa [stop] at here

end FieldRow

namespace Instruction

/-- As long as sums of widths fit in 32 bits, the rows of an instruction partition its bits up to
its length or that of its fields, whichever is less. The rows lie end to end, each within one field,
and their digits in turn are the bits from the address of the instruction on, around the top of the
address space. Only a group that reaches past the top shows its bits behind it as clear. What is
printed tells the digits and the addresses of each row, and no more is ever cut off a field than it
has.
-/
theorem rows_partition (image : Image) (instruction : Instruction) (fits : instruction.SumsFit)
    : let fields := instruction.format.place instruction.address
      let rows := FieldRow.ofInstruction image instruction
      let bits := min instruction.length.toNat (placedBits fields)
      let digits := rows.flatMap FieldRow.digits
      FieldRow.EndToEnd instruction.address fields 0 rows bits
      ∧ digits.length = bits
      ∧ (∀ front placed rear place,
          fields = front ++ placed :: rear
          → place < placed.width.toNat
          → placedBits front + place < instruction.length.toNat
          → digits[placedBits front + place]?
            = some (FieldRow.shownDigit image instruction.address (placedBits front) place))
      ∧ (∀ commentChar,
          (rows.map (·.line commentChar)).flatMap FieldRow.digitsOfLine = digits)
      ∧ ∀ before, ∀ placed ∈ fields,
          before < instruction.length
          → instruction.length < before + placed.width
          → before + placed.width - instruction.length ≤ placed.width := by
  intro fields rows bits digits
  have shown : rows = FieldRow.shownRows image instruction.length.toNat 0 fields :=
    FieldRow.ofInstruction_eq_shownRows image fits
  have starts : ∀ front placed rear, fields = front ++ placed :: rear
      → placed.start = instruction.address + UInt32.ofNat (placedBits front) :=
    fun _ _ _ split => Format.start_place split
  have all : digits = (FieldRow.fieldDigits image fields).take instruction.length.toNat := by
    change rows.flatMap FieldRow.digits = _
    rw [shown, FieldRow.digits_shownRows, Nat.sub_zero]
  refine ⟨?_, ?_, ?_, ?_, ?_⟩
  · have ends := FieldRow.shownRows_endToEnd image instruction.length.toNat starts
      (List.nil_append fields).symm
    have before : placedBits [] = 0 := rfl
    rw [before, Nat.min_zero] at ends
    rw [shown]
    exact ends
  · rw [all, List.length_take, FieldRow.length_fieldDigits]
  · intro front placed rear place split inside before
    rw [all, List.getElem?_take_of_lt before, split,
      FieldRow.getElem?_fieldDigits image front rear inside, starts front placed rear split,
      FieldRow.fieldDigit_eq_shownDigit]
  · exact fun commentChar => FieldRow.digitsOfLine_ofFields image _ _ _ commentChar
  · exact fun before placed _ going reached => FieldRow.cut_le going reached

/-- A field of 32 bits, of which an instruction of 37 bits shows 29, in two rows. -/
theorem rows_partition_cut
    : let instruction : Instruction := {
        address := ⟨0x8000⟩
        length := 37
        opcode := 15
        mnemonic := "BLOB"
        operand := ""
        format := [Field.mnemonic 8 "BLOB", Field.plain 32 "Payload"]
        mode := ⟨0x10⟩ }
      ∃ image,
        Image.create ⟨0x8000⟩ 64 = .ok image
        ∧ instruction.SumsFit
        ∧ FieldRow.EndToEnd ⟨0x8000⟩ (instruction.format.place ⟨0x8000⟩) 0
            (FieldRow.ofInstruction (image.load #[0x0F, 0xFF, 0x00, 0xFF, 0x0A]) instruction) 37
        ∧ (FieldRow.ofInstruction (image.load #[0x0F, 0xFF, 0x00, 0xFF, 0x0A]) instruction).map
            (fun row => (row.digits.length, row.isContinued))
          = [(8, false), (24, false), (5, true)] := by
  intro instruction
  have fits : instruction.SumsFit := by
    unfold SumsFit
    decide
  obtain ⟨image, created, shown⟩
      : ∃ image,
          Image.create ⟨0x8000⟩ 64 = .ok image
          ∧ (FieldRow.ofInstruction (image.load #[0x0F, 0xFF, 0x00, 0xFF, 0x0A]) instruction).map
              (fun row => (row.digits.length, row.isContinued))
            = [(8, false), (24, false), (5, true)] :=
    ⟨_, rfl, by decide +kernel⟩
  exact ⟨image, created, fits,
    (rows_partition (image.load #[0x0F, 0xFF, 0x00, 0xFF, 0x0A]) instruction fits).1, shown⟩

/-- A group that reaches past the top of the address space: its last two bits would be the first two
of the image, which are set, but are shown as clear.
-/
theorem group_past_top
    : let instruction : Instruction := {
        address := ⟨0xFFFFFFFE⟩
        length := 4
        opcode := 0
        mnemonic := "X"
        operand := ""
        format := [Field.mnemonic 4 "X"]
        mode := ⟨0⟩ }
      ∃ image,
        Image.create ⟨0⟩ 32 = .ok image
        ∧ ((List.range 4).map fun place =>
            (image.load #[0xFF, 0xFF, 0xFF, 0xFF]).bitAt
              (instruction.address + UInt32.ofNat place).toNat)
          = [false, false, true, true]
        ∧ (FieldRow.ofInstruction (image.load #[0xFF, 0xFF, 0xFF, 0xFF]) instruction).flatMap
            FieldRow.digits
          = ['0', '0', '0', '0'] :=
  ⟨_, rfl, by decide +kernel, by decide +kernel⟩

end Instruction

end SpeechRom
