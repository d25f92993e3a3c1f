import SpeechRom.Format.Sp0256
import SpeechRom.Proofs.Address

/-! Lengths of formats. A format takes up the widths of its fields, and padding adds what is
missing to the next byte boundary at the place where it stands.
-/

namespace SpeechRom

/-- The address after a format that starts at an address. -/
def Format.finish (start : BitAddress) (format : Format) : BitAddress :=
  start + placedLength (Format.place start format)

/-- The bits that a field has at least. -/
def Field.leastBits (field : Field) : Nat := if field.isPadding then 0 else field.width.toNat

/-- The bits that a field has at most. -/
def Field.mostBits (field : Field) : Nat := if field.isPadding then 7 else field.width.toNat

/-- The bits that a format has at least. -/
def Format.leastBits (format : Format) : Nat :=
  format.foldr (fun field bits => field.leastBits + bits) 0

/-- The bits that a format has at most. -/
def Format.mostBits (format : Format) : Nat :=
  format.foldr (fun field bits => field.mostBits + bits) 0

theorem Field.widthAt_bounds (field : Field) (start : BitAddress)
    : field.leastBits ≤ (field.widthAt start).toNat
      ∧ (field.widthAt start).toNat ≤ field.mostBits := by
  unfold Field.leastBits Field.mostBits Field.widthAt
  cases field.isPadding with
  | true =>
      have gap := start.toNat_bitsToBoundary
      simp only [if_true]
      omega
  | false => simp

theorem Field.widthAt_le (field : Field) (start : BitAddress)
    : (field.widthAt start).toNat ≤ 255 := by
  have most := (field.widthAt_bounds start).2
  have byte := field.width.toNat_lt
  unfold Field.mostBits at most
  split at most
  · omega
  · omega

theorem placedLength_cons (first : PlacedField) (rest : List PlacedField)
    : placedLength (first :: rest) = first.width + placedLength rest := by
  have shift (fields : List PlacedField) (length : UInt32)
      : fields.foldl (fun length placed => length + placed.width) length
        = length + fields.foldl (fun length placed => length + placed.width) 0 := by
    induction fields generalizing length with
    | nil => simp
    | cons head tail ih =>
        rw [List.foldl_cons, ih, List.foldl_cons, ih (0 + head.width), UInt32.zero_add,
          UInt32.add_assoc]
  rw [placedLength, List.foldl_cons, shift, UInt32.zero_add, placedLength]

/-- The length of a format lies between the sums of what its fields have at least and at most, as
long as the sum does not wrap. Witness: induction on the fields, each at its own place.
-/
theorem placedLength_bounds (format : Format) (start : BitAddress)
    (small : format.mostBits < 4294967296)
    : format.leastBits ≤ (placedLength (format.place start)).toNat
      ∧ (placedLength (format.place start)).toNat ≤ format.mostBits := by
  induction format generalizing start with
  | nil => exact ⟨Nat.le_refl 0, Nat.le_refl 0⟩
  | cons field rest ih =>
      simp only [Format.leastBits, Format.mostBits, List.foldr_cons] at small ih ⊢
      obtain ⟨least, most⟩ := field.widthAt_bounds start
      obtain ⟨restLeast, restMost⟩ := ih (start + field.widthAt start) (by omega)
      rw [Format.place, placedLength_cons]
      dsimp only
      rw [UInt32.toNat_add, Nat.mod_eq_of_lt (by omega)]
      omega

theorem Format.finish_cons (start : BitAddress) (field : Field) (rest : Format)
    : Format.finish start (field :: rest)
      = Format.finish (start + field.widthAt start) rest := by
  simp only [finish, place, placedLength_cons, BitAddress.add_assoc]

theorem Format.finish_append (start : BitAddress) (front rest : Format)
    : Format.finish start (front ++ rest) = Format.finish (Format.finish start front) rest := by
  induction front generalizing start with
  | nil => simp [finish, place, placedLength]
  | cons field front ih => rw [List.cons_append, finish_cons, ih, ← finish_cons]

/-- A format that closes with padding ends on a byte boundary. -/
theorem Format.finish_padding_aligned (start : BitAddress) (front : Format)
    : (Format.finish start (front ++ [Field.padding])).toNat % 8 = 0 := by
  have closing (address : BitAddress)
      : Format.finish address [Field.padding] = address + address.bitsToBoundary := by
    simp [finish, place, placedLength, Field.widthAt, Field.isPadding, Field.padding]
  rw [finish_append, closing]
  exact BitAddress.add_bitsToBoundary_aligned _

namespace Sp0256

/-- The table of the processor passes its check. -/
theorem validate_table : table.validate = .ok () := by
  have faultless : table.error? = none := by decide +kernel
  rw [FormatTable.validate, faultless]

theorem table_bits (opcode : Fin 16) (mode : Fin 4)
    : 8 ≤ (table.format opcode mode).leastBits ∧ (table.format opcode mode).mostBits ≤ 136 := by
  revert opcode mode
  decide

/-- Every instruction of the processor has at least a byte and at most 136 bits. -/
theorem length_bounds (opcode : Fin 16) (mode : Fin 4) (start : BitAddress)
    : 8 ≤ (placedLength ((table.format opcode mode).place start)).toNat
      ∧ (placedLength ((table.format opcode mode).place start)).toNat ≤ 136 := by
  obtain ⟨least, most⟩ := table_bits opcode mode
  obtain ⟨lower, upper⟩ := placedLength_bounds (table.format opcode mode) start (by omega)
  exact ⟨by omega, by omega⟩

/-- Branches have two bytes at least. -/
theorem branch_length {opcode : Fin 16} (branch : opcode = 7 ∨ opcode = 11) (mode : Fin 4)
    (start : BitAddress)
    : 16 ≤ (placedLength ((table.format opcode mode).place start)).toNat := by
  have least : 16 ≤ (table.format opcode mode).leastBits := by
    revert opcode mode
    decide
  have most := (table_bits opcode mode).2
  have lower := (placedLength_bounds (table.format opcode mode) start (by omega)).1
  omega

/-- Returns and jumps close with padding. -/
theorem table_padded {opcode : Fin 16} (padded : opcode = 0 ∨ opcode = 7) (mode : Fin 4)
    : ∃ front, table.format opcode mode = front ++ [Field.padding] := by
  rcases padded with rfl | rfl
  · exact ⟨[Field.mnemonic 8 "RTS/PAGE"], rfl⟩
  · exact ⟨[Field.plain 4 "BTrg MSBs", Field.mnemonic 4 "JMP", Field.plain 8 "BTrg LSBs"], rfl⟩

end Sp0256

end SpeechRom
