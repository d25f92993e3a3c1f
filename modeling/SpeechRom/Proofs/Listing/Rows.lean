import SpeechRom.Listing
import SpeechRom.Proofs.Format.Lengths
import SpeechRom.Proofs.Image.Bits
import SpeechRom.Proofs.Listing.Pieces
import SpeechRom.Proofs.Text.Addresses

/-! Rows of fields digit by digit. Groups, rows and fields cut a run of bits into pieces, and the
digits of the pieces in turn are those of the run. A printed row gives its digits and its addresses
back.
-/

namespace SpeechRom

-----------------------------------------------------------------------------------------
-- Runs of bits
-----------------------------------------------------------------------------------------

namespace Image

/-- The digits of a run of so many bits. -/
def digitsFrom (image : Image) (start count : Nat) : List Char :=
  (List.range count).map fun place => if image.bitAt (start + place) then '1' else '0'

theorem digitsFrom_zero (image : Image) (start : Nat) : image.digitsFrom start 0 = [] := rfl

theorem digitsFrom_add (image : Image) (start first second : Nat)
    : image.digitsFrom start (first + second)
      = image.digitsFrom start first ++ image.digitsFrom (start + first) second := by
  rw [digitsFrom, List.range_add, List.map_append, List.map_map]
  refine congrArg (_ ++ ·) (List.map_congr_left fun place _ => ?_)
  rw [Function.comp, Nat.add_assoc]

/-- Pieces of one width, of which the last may be short or empty, make up a run. -/
theorem digitsFrom_pieces (image : Image) (start width count pieces : Nat)
    : (List.range pieces).flatMap (fun piece =>
        image.digitsFrom (start + width * piece) (min width (count - width * piece)))
      = image.digitsFrom start (min count (width * pieces)) := by
  rw [digitsFrom, ← range_pieces, List.map_flatMap]
  refine List.flatMap_congr fun piece _ => ?_
  rw [digitsFrom, List.map_map]
  refine List.map_congr_left fun place _ => ?_
  rw [Function.comp, Nat.add_assoc]

theorem SameBits.digitsFrom {left right : Image} (same : left.SameBits right) (start count : Nat)
    : left.digitsFrom start count = right.digitsFrom start count := by
  simp only [Image.digitsFrom, same.bitAt]

end Image

-----------------------------------------------------------------------------------------
-- Groups and rows
-----------------------------------------------------------------------------------------

namespace FieldRow

/-- A group shows the bits from its address on. -/
theorem groupDigits_eq (image : Image) (start : BitAddress) {count : Nat} (small : count ≤ 32)
    : groupDigits image start count = image.digitsFrom start.toNat count := by
  have width : (UInt32.ofNat count).toNat = count :=
    UInt32.toNat_ofNat_of_lt (Nat.lt_of_le_of_lt small (by decide))
  refine List.map_congr_left fun place member => ?_
  have inside := List.mem_range.mp member
  have least : min count 32 = count := Nat.min_eq_left small
  have mirrored : count - 1 - (count - 1 - place) = place := by omega
  rw [Image.testBit_readForward, width, least, mirrored, decide_eq_true (by omega),
    Bool.true_and]

/-- The digit of a bit of a field. A bit is read with its group, and the groups of a field start at
multiples of four bits.
-/
def fieldDigit (image : Image) (start : BitAddress) (place : Nat) : Char :=
  if image.bitAt ((start + UInt32.ofNat (bitsPerGroup * (place / bitsPerGroup))).toNat
      + place % bitsPerGroup)
    then '1' else '0'

/-- A group of a row is a piece of its run of bits, with no digits past its end. -/
theorem groupDigits_piece (image : Image) (start : BitAddress) (count group : Nat)
    : groupDigits image (start + UInt32.ofNat (bitsPerGroup * group))
        (min bitsPerGroup (count - bitsPerGroup * group))
      = (List.range (min bitsPerGroup (count - bitsPerGroup * group))).map fun place =>
          fieldDigit image start (bitsPerGroup * group + place) := by
  have four : bitsPerGroup = 4 := rfl
  rw [groupDigits_eq _ _ (by omega)]
  refine List.map_congr_left fun place member => ?_
  have inside := List.mem_range.mp member
  have small : place < bitsPerGroup := by omega
  have number : (bitsPerGroup * group + place) / bitsPerGroup = group := by
    rw [Nat.mul_add_div (by decide), Nat.div_eq_of_lt small, Nat.add_zero]
  have rest : (bitsPerGroup * group + place) % bitsPerGroup = place := by
    rw [Nat.mul_add_mod, Nat.mod_eq_of_lt small]
  rw [fieldDigit, number, rest]

/-- The groups of a row show its bits, as many as fit in a row. -/
theorem flatten_groupsOf (image : Image) (start : BitAddress) (count : Nat)
    : (groupsOf image start count).flatten
      = (List.range (min count bitsPerRow)).map (fieldDigit image start) := by
  have whole : bitsPerGroup * (bitsPerRow / bitsPerGroup) = bitsPerRow := rfl
  rw [groupsOf, ← List.flatMap_def, List.flatMap_congr fun group _ =>
    groupDigits_piece image start count group, ← whole, ← range_pieces, List.map_flatMap]
  simp only [List.map_map]
  rfl

/-- Rows start at multiples of four bits too, so they do not change the groups of a field. -/
theorem fieldDigit_row (image : Image) (start : BitAddress) (row place : Nat)
    : fieldDigit image (start + UInt32.ofNat (bitsPerRow * row)) place
      = fieldDigit image start (bitsPerRow * row + place) := by
  have groups : bitsPerRow * row + bitsPerGroup * (place / bitsPerGroup)
      = bitsPerGroup * ((bitsPerRow * row + place) / bitsPerGroup) := by
    simp only [bitsPerRow, bitsPerGroup]
    omega
  have rest : (bitsPerRow * row + place) % bitsPerGroup = place % bitsPerGroup := by
    simp only [bitsPerRow, bitsPerGroup]
    omega
  rw [fieldDigit, fieldDigit, BitAddress.add_ofNat, groups, rest]

/-- A row of a field by its number. -/
def rowAt (image : Image) (placed : PlacedField) (count row : Nat) : FieldRow :=
  let start := placed.start + UInt32.ofNat (bitsPerRow * row)
  ⟨placed.field, start, groupsOf image start (min bitsPerRow (count - bitsPerRow * row)), row != 0⟩

theorem ofField_eq (image : Image) (placed : PlacedField) (count : Nat)
    : ofField image placed count
      = (List.range ((count + bitsPerRow - 1) / bitsPerRow)).map (rowAt image placed count) :=
  rfl

theorem digits_rowAt (image : Image) (placed : PlacedField) (count row : Nat)
    : (rowAt image placed count row).digits
      = (List.range (min bitsPerRow (count - bitsPerRow * row))).map fun place =>
          fieldDigit image placed.start (bitsPerRow * row + place) := by
  rw [digits, rowAt, flatten_groupsOf, Nat.min_eq_left (Nat.min_le_left ..)]
  exact List.map_congr_left fun place _ => fieldDigit_row image placed.start row place

/-- The rows of a field hold all bits of the field that are to be shown. -/
theorem rows_hold (count : Nat)
    : min count (bitsPerRow * ((count + bitsPerRow - 1) / bitsPerRow)) = count := by
  simp only [bitsPerRow]
  omega

/-- The rows of a field show the bits of the field that are to be shown. -/
theorem digits_ofField (image : Image) (placed : PlacedField) (count : Nat)
    : (ofField image placed count).flatMap digits
      = (List.range count).map (fieldDigit image placed.start) := by
  have pieces := range_pieces bitsPerRow count ((count + bitsPerRow - 1) / bitsPerRow)
  rw [rows_hold] at pieces
  rw [ofField_eq, List.flatMap_map, List.flatMap_congr fun row _ =>
    digits_rowAt image placed count row, ← pieces, List.map_flatMap]
  simp only [List.map_map]
  rfl

/-- Below the top of the address space a digit shows the bit at its place. -/
theorem fieldDigit_of_lt (image : Image) {start : BitAddress} {place : Nat}
    (room : start.toNat + place < 4294967296)
    : fieldDigit image start place = if image.bitAt (start.toNat + place) then '1' else '0' := by
  have before := Nat.mul_div_le place bitsPerGroup
  have offset : (UInt32.ofNat (bitsPerGroup * (place / bitsPerGroup))).toNat
      = bitsPerGroup * (place / bitsPerGroup) :=
    UInt32.toNat_ofNat_of_lt (show bitsPerGroup * (place / bitsPerGroup) < 4294967296 by omega)
  rw [fieldDigit, BitAddress.toNat_add_of_lt (by omega), offset, Nat.add_assoc, Nat.div_add_mod]

end FieldRow

-----------------------------------------------------------------------------------------
-- Fields
-----------------------------------------------------------------------------------------

/-- The bits that placed fields show together when nothing cuts them short. -/
def placedBits (fields : List PlacedField) : Nat := (fields.map (·.width.toNat)).sum

theorem placedBits_cons (placed : PlacedField) (rest : List PlacedField)
    : placedBits (placed :: rest) = placed.width.toNat + placedBits rest := rfl

/-- A length is a sum that may wrap, so it is never more than the bits of the fields. -/
theorem placedLength_le (fields : List PlacedField)
    : (placedLength fields).toNat ≤ placedBits fields := by
  induction fields with
  | nil => exact Nat.le_refl 0
  | cons placed rest ih =>
      have wrapped := Nat.mod_le (placed.width.toNat + (placedLength rest).toNat) (2 ^ 32)
      rw [placedLength_cons, UInt32.toNat_add, placedBits_cons]
      omega

theorem Format.width_place_le {format : Format} {start : BitAddress} {placed : PlacedField}
    (member : placed ∈ format.place start)
    : placed.width.toNat ≤ 255 := by
  induction format generalizing start with
  | nil => cases member
  | cons field rest ih =>
      rcases List.mem_cons.mp member with rfl | later
      · exact field.widthAt_le start
      · exact ih later

/-- The sum of the widths of fields does not wrap as long as there is something left to show: all
fields together have fewer than 2^32 bits, or the instruction ends before the widest field could
carry the sum so far.
-/
def Instruction.SumsFit (instruction : Instruction) : Prop :=
  min (placedBits (instruction.format.place instruction.address)) (instruction.length.toNat + 254)
    < 4294967296

namespace FieldRow

/-- The rows of fields that follow so many bits, counted without bound. -/
def shownRows (image : Image) (length before : Nat) : List PlacedField → List FieldRow
  | [] => []
  | placed :: rest =>
    ofField image placed (min placed.width.toNat (length - before)) ++
      shownRows image length (before + placed.width.toNat) rest

/-- Behind the end of an instruction nothing is shown. -/
theorem shownRows_ended (image : Image) {length before : Nat} (ended : length ≤ before)
    (fields : List PlacedField)
    : shownRows image length before fields = [] := by
  induction fields generalizing before with
  | nil => rfl
  | cons placed rest ih =>
      rw [shownRows, ih (by omega), Nat.sub_eq_zero_of_le ended, Nat.min_zero]
      rfl

/-- What is cut off a field is never more than the field, whether or not the sum wraps: a sum that
wraps lies below what it was before, and so below the length.
-/
theorem cut_le {length before width : UInt32} (going : before < length)
    (reached : length < before + width)
    : before + width - length ≤ width := by
  rw [UInt32.lt_iff_toNat_lt] at going reached
  rw [UInt32.le_iff_toNat_le, UInt32.toNat_sub_of_le _ _ (UInt32.le_of_lt
    (UInt32.lt_iff_toNat_lt.mpr reached))]
  have sum := Nat.mod_le (before.toNat + width.toNat) (2 ^ 32)
  rw [UInt32.toNat_add] at reached ⊢
  omega

theorem toNat_shownWidth {length before width : UInt32} (going : before < length)
    (fits : before.toNat + width.toNat < 4294967296)
    : (shownWidth length (before + width) width).toNat
      = min width.toNat (length.toNat - before.toNat) := by
  have sum : (before + width).toNat = before.toNat + width.toNat := by
    rw [UInt32.toNat_add, Nat.mod_eq_of_lt fits]
  have start := UInt32.lt_iff_toNat_lt.mp going
  unfold shownWidth
  split
  · rename_i reached
    have cut := UInt32.lt_iff_toNat_lt.mp reached
    rw [UInt32.toNat_sub_of_le _ _ (cut_le going reached),
      UInt32.toNat_sub_of_le _ _ (UInt32.le_of_lt reached), sum]
    omega
  · rename_i within
    have whole := UInt32.le_iff_toNat_le.mp (UInt32.not_lt.mp within)
    omega

/-- Where sums do not wrap, counting without bound makes no difference. Witness: induction on the
fields; the next sum is at most that of all fields and exceeds the length by less than a field.
-/
theorem ofFields_eq_shownRows (image : Image) {length before : UInt32} {fields : List PlacedField}
    (narrow : ∀ placed ∈ fields, placed.width.toNat ≤ 255)
    (fits : min (before.toNat + placedBits fields) (length.toNat + 254) < 4294967296)
    : ofFields image length before fields
      = shownRows image length.toNat before.toNat fields := by
  induction fields generalizing before with
  | nil => rfl
  | cons placed rest ih =>
      obtain ⟨first, others⟩ := List.forall_mem_cons.mp narrow
      rw [placedBits_cons] at fits
      rw [ofFields]
      by_cases ended : length ≤ before
      · rw [if_pos ended, shownRows_ended image (UInt32.le_iff_toNat_le.mp ended)]
      · have going := UInt32.not_le.mp ended
        have start := UInt32.lt_iff_toNat_lt.mp going
        have small : before.toNat + placed.width.toNat < 4294967296 := by omega
        have sum : (before + placed.width).toNat = before.toNat + placed.width.toNat := by
          rw [UInt32.toNat_add, Nat.mod_eq_of_lt small]
        rw [if_neg ended, shownRows]
        dsimp only
        rw [toNat_shownWidth going small, ih others (by omega), sum]

theorem ofInstruction_eq_shownRows (image : Image) {instruction : Instruction}
    (fits : instruction.SumsFit)
    : ofInstruction image instruction
      = shownRows image instruction.length.toNat 0
          (instruction.format.place instruction.address) := by
  rw [Instruction.SumsFit] at fits
  refine ofFields_eq_shownRows image (fun placed member => Format.width_place_le member) ?_
  rw [UInt32.toNat_zero, Nat.zero_add]
  exact fits

/-- The digits of all fields. -/
def fieldDigits (image : Image) (fields : List PlacedField) : List Char :=
  fields.flatMap fun placed => (List.range placed.width.toNat).map (fieldDigit image placed.start)

theorem fieldDigits_cons (image : Image) (placed : PlacedField) (rest : List PlacedField)
    : fieldDigits image (placed :: rest)
      = (List.range placed.width.toNat).map (fieldDigit image placed.start)
        ++ fieldDigits image rest := rfl

theorem length_fieldDigits (image : Image) (fields : List PlacedField)
    : (fieldDigits image fields).length = placedBits fields := by
  simp [fieldDigits, placedBits, List.length_flatMap]

/-- The rows show the digits of the fields up to the end of the instruction, by induction on the
fields.
-/
theorem digits_shownRows (image : Image) (length before : Nat) (fields : List PlacedField)
    : (shownRows image length before fields).flatMap digits
      = (fieldDigits image fields).take (length - before) := by
  induction fields generalizing before with
  | nil => exact List.take_nil.symm
  | cons placed rest ih =>
      rw [shownRows, List.flatMap_append, digits_ofField, ih, fieldDigits_cons, List.take_append,
        List.length_map, List.length_range, ← List.map_take, List.take_range, Nat.min_comm,
        Nat.sub_sub]

/-- Below the top of the address space the digits of a format are those of a run of bits. Witness:
induction on the fields, each at its own place.
-/
theorem take_fieldDigits (image : Image) (format : Format) {start : BitAddress} {count : Nat}
    (room : start.toNat + count ≤ 4294967296)
    : (fieldDigits image (format.place start)).take count
      = image.digitsFrom start.toNat (min (placedBits (format.place start)) count) := by
  induction format generalizing start count with
  | nil =>
      rw [Format.place, placedBits, List.map_nil, List.sum_nil, Nat.zero_min, Image.digitsFrom_zero]
      exact List.take_nil
  | cons field rest ih =>
      have shown
          : ((List.range (field.widthAt start).toNat).map (fieldDigit image start)).take count
            = image.digitsFrom start.toNat (min count (field.widthAt start).toNat) := by
        rw [← List.map_take, List.take_range]
        refine List.map_congr_left fun place member => fieldDigit_of_lt image ?_
        have inside := List.mem_range.mp member
        omega
      rw [Format.place, fieldDigits_cons, placedBits_cons, List.take_append, List.length_map,
        List.length_range, shown]
      dsimp only
      by_cases cut : count ≤ (field.widthAt start).toNat
      · rw [Nat.sub_eq_zero_of_le cut, List.take_zero, List.append_nil]
        congr 1
        omega
      · have next : (start + field.widthAt start).toNat
            = start.toNat + (field.widthAt start).toNat := BitAddress.toNat_add_of_lt (by omega)
        rw [ih (by omega), next, Nat.min_eq_right (by omega), ← Image.digitsFrom_add]
        congr 1
        omega

end FieldRow

-----------------------------------------------------------------------------------------
-- Printed rows
-----------------------------------------------------------------------------------------

namespace FieldRow

/-- The digits that can be read off a printed row: those in its six columns. -/
def digitsOfLine (line : String) : List Char :=
  ((line.toList.drop 4).take 30).filter Text.isDigit

/-- A row has six groups of at most four digits. -/
structure Grouped (row : FieldRow) : Prop where
  six : row.groups.length = 6
  short : ∀ group ∈ row.groups, group.length ≤ 4
  digits : ∀ group ∈ row.groups, ∀ digit ∈ group, Text.isDigit digit

/-- The columns of a row as they are printed. -/
def columns (row : FieldRow) : List Char :=
  row.groups.flatMap fun group => ' ' :: Text.padRight ' ' 4 group

theorem Grouped.length_columns {row : FieldRow} (grouped : row.Grouped)
    : row.columns.length = 30 := by
  have five (group : List Char) (member : group ∈ row.groups)
      : (' ' :: Text.padRight ' ' 4 group).length = 5 := by
    have short := grouped.short group member
    rw [List.length_cons, Text.padRight, List.length_append, List.length_replicate]
    omega
  rw [columns, List.length_flatMap, List.map_congr_left five, List.map_const', grouped.six]
  rfl

theorem Grouped.filter_columns {row : FieldRow} (grouped : row.Grouped)
    : row.columns.filter Text.isDigit = row.digits := by
  have blank : Text.isDigit ' ' = false := by decide
  rw [columns, List.filter_flatMap, FieldRow.digits, ← List.flatMap_id]
  refine List.flatMap_congr fun group member => ?_
  rw [List.filter_cons_of_neg (by simp [blank]), Text.padRight, List.filter_append,
    List.filter_eq_self.mpr (grouped.digits group member), List.filter_replicate, blank]
  exact List.append_nil group

theorem join_groups (row : FieldRow)
    : String.join (row.groups.map fun group => " " ++ String.ofList (Text.padRight ' ' 4 group))
      = String.ofList row.columns := by
  rw [← String.ofList_toList (s := String.join _), String.toList_join, List.flatMap_map]
  simp only [String.toList_append, String.toList_ofList]
  rfl

/-- What is printed of a row: its columns, its ends, and its field. -/
theorem line_eq (row : FieldRow) (commentChar : Char)
    : row.line commentChar
      = "    " ++ String.ofList row.columns ++ "  " ++ String.ofList [commentChar] ++ " "
        ++ row.start.text ++ " .. " ++ row.last.text ++ ":  " ++ row.field.name
        ++ (if row.field.isReversed then " (br)" else "")
        ++ (if row.isContinued then " (cont)" else "") := by
  unfold line
  rw [join_groups]

/-- A printed row gives its digits back. -/
theorem Grouped.digitsOfLine_line {row : FieldRow} (grouped : row.Grouped) (commentChar : Char)
    : digitsOfLine (row.line commentChar) = row.digits := by
  obtain ⟨rest, printed⟩ : ∃ rest, row.line commentChar
      = "    " ++ String.ofList row.columns ++ rest := by
    simp only [line_eq, String.append_assoc]
    exact ⟨_, rfl⟩
  have margin : "    ".toList.length = 4 := rfl
  have shown : (String.ofList row.columns).toList = row.columns := String.toList_ofList
  rw [digitsOfLine, printed, String.toList_append, String.toList_append, shown,
    List.append_assoc, List.drop_left' margin, List.take_left' grouped.length_columns,
    grouped.filter_columns]

/-- Reads the addresses off a printed row. They are the first and the third word behind its columns
and the comment character, and the second of them ends in a colon.
-/
def addressesOfLine? (line : String) : Option (BitAddress × BitAddress) :=
  match Text.words (line.toList.drop 38) with
  | first :: _ :: last :: _ =>
    match BitAddress.ofText? (String.ofList first),
        BitAddress.ofText? (String.ofList last.dropLast) with
    | some first, some last => some (first, last)
    | _, _ => none
  | _ => none

/-- A printed row gives its addresses back. -/
theorem Grouped.addressesOfLine?_line {row : FieldRow} (grouped : row.Grouped)
    (commentChar : Char)
    : addressesOfLine? (row.line commentChar) = some (row.start, row.last) := by
  have blank : Text.isBlank ' ' := by decide
  obtain ⟨rest, printed⟩ : ∃ rest, (row.line commentChar).toList
      = ("    ".toList ++ row.columns ++ [' ', ' ', commentChar, ' '])
        ++ (row.start.text.toList ++ ' ' :: (['.', '.'] ++ ' ' ::
          ((row.last.text.toList ++ [':']) ++ ' ' :: rest))) := by
    rw [line_eq]
    simp only [String.toList_append, String.toList_ofList, List.append_assoc]
    exact ⟨_, rfl⟩
  have margin : ("    ".toList ++ row.columns ++ [' ', ' ', commentChar, ' ']).length = 38 := by
    rw [List.length_append, List.length_append, grouped.length_columns]
    rfl
  have first : Text.words row.start.text.toList = [row.start.text.toList] :=
    Text.words_eq_singleton (by simp [BitAddress.text]) row.start.text_plain
  have last : Text.words (row.last.text.toList ++ [':']) = [row.last.text.toList ++ [':']] := by
    refine Text.words_eq_singleton (by simp) fun c member => ?_
    rcases List.mem_append.mp member with address | colon
    · exact row.last.text_plain c address
    · rw [List.mem_singleton.mp colon]
      decide
  have words : Text.words ((row.line commentChar).toList.drop 38)
      = row.start.text.toList :: ['.', '.'] :: (row.last.text.toList ++ [':'])
        :: Text.words rest := by
    rw [printed, List.drop_left' margin, Text.words_append_cons blank, first,
      Text.words_append_cons blank, Text.words_append_cons blank, last]
    rfl
  simp only [addressesOfLine?, words, List.dropLast_concat, String.ofList_toList,
    BitAddress.ofText?_text]

theorem grouped_ofField {image : Image} {placed : PlacedField} {count : Nat} {row : FieldRow}
    (member : row ∈ ofField image placed count)
    : row.Grouped := by
  obtain ⟨number, -, rfl⟩ := List.mem_map.mp member
  refine ⟨?_, ?_, ?_⟩
  · dsimp only [groupsOf]
    rw [List.length_map, List.length_range]
    rfl
  · intro group inside
    obtain ⟨_, -, rfl⟩ := List.mem_map.mp inside
    rw [groupDigits, Text.binaryChars, List.length_map, List.length_range]
    exact Nat.min_le_left ..
  · intro group inside digit shown
    obtain ⟨_, -, rfl⟩ := List.mem_map.mp inside
    obtain ⟨_, -, rfl⟩ := List.mem_map.mp shown
    split <;> decide

theorem grouped_ofFields {image : Image} {length before : UInt32} {fields : List PlacedField}
    {row : FieldRow} (member : row ∈ ofFields image length before fields)
    : row.Grouped := by
  induction fields generalizing before with
  | nil => cases member
  | cons placed rest ih =>
      rw [ofFields] at member
      split at member
      · cases member
      · rcases List.mem_append.mp member with here | later
        · exact grouped_ofField here
        · exact ih later

/-- The printed rows of fields give the digits of the rows back. -/
theorem digitsOfLine_ofFields (image : Image) (length before : UInt32)
    (fields : List PlacedField) (commentChar : Char)
    : ((ofFields image length before fields).map (·.line commentChar)).flatMap digitsOfLine
      = (ofFields image length before fields).flatMap digits := by
  rw [List.flatMap_map]
  exact List.flatMap_congr fun row member => (grouped_ofFields member).digitsOfLine_line commentChar

end FieldRow

end SpeechRom
