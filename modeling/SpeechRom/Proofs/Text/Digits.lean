import SpeechRom.Text.Digits

/-! Numbers read back as what was written: hexadecimal ones with leading zeros and in either case,
so different numbers are written differently, and decimal ones without leading zeros.
-/

namespace SpeechRom.Text

theorem hexValue?_hexDigit {value : Nat} (small : value < 16)
    : hexValue? (hexDigit value) = some value := by
  have digits : ∀ digit : Fin 16, hexValue? (hexDigit digit.val) = some digit.val := by decide
  exact digits ⟨value, small⟩

theorem hexFrom?_append (value : Nat) (chars more : List Char)
    : hexFrom? value (chars ++ more) = (hexFrom? value chars).bind (hexFrom? · more) := by
  induction chars generalizing value with
  | nil => rfl
  | cons c rest ih =>
      simp only [List.cons_append, hexFrom?]
      cases hexValue? c with
      | none => rfl
      | some digit => exact ih (value * 16 + digit)

/-- The digits of a number read back as the number, by induction on all but the last of them. -/
theorem hexFrom?_hexChars (value : Nat) : hexFrom? 0 (hexChars value) = some value := by
  induction value using Nat.strongRecOn with
  | ind value ih =>
      rw [hexChars]
      by_cases small : value < 16
      · rw [if_pos small]
        simp [hexFrom?, hexValue?_hexDigit small]
      · rw [if_neg small, hexFrom?_append, ih (value / 16) (by omega)]
        simp only [Option.bind_some, hexFrom?, hexValue?_hexDigit (Nat.mod_lt value (by omega))]
        congr 1
        omega

/-- Leading zeros do not count. -/
theorem hexFrom?_padLeft (width : Nat) (chars : List Char)
    : hexFrom? 0 (padLeft '0' width chars) = hexFrom? 0 chars := by
  have zeros (count : Nat) : hexFrom? 0 (List.replicate count '0') = some 0 := by
    induction count with
    | zero => rfl
    | succ count ih => exact ih
  rw [padLeft, hexFrom?_append, zeros]
  rfl

theorem hexChars_ne_nil (value : Nat) : hexChars value ≠ [] := by
  rw [hexChars]
  split
  · exact List.cons_ne_nil _ _
  · exact List.append_ne_nil_of_right_ne_nil _ (List.cons_ne_nil _ _)

theorem readHex?_eq_hexFrom? {chars : List Char} (nonempty : chars ≠ [])
    : readHex? chars = hexFrom? 0 chars := by
  obtain ⟨c, rest, rfl⟩ := List.exists_cons_of_ne_nil nonempty
  rfl

/-- A written number is read back, with any number of leading zeros. -/
theorem readHex?_padLeft (width value : Nat)
    : readHex? (padLeft '0' width (hexChars value)) = some value := by
  have nonempty : padLeft '0' width (hexChars value) ≠ [] :=
    List.append_ne_nil_of_right_ne_nil _ (hexChars_ne_nil value)
  rw [readHex?_eq_hexFrom? nonempty, hexFrom?_padLeft, hexFrom?_hexChars]

theorem readHex?_hexChars (value : Nat) : readHex? (hexChars value) = some value := by
  rw [readHex?_eq_hexFrom? (hexChars_ne_nil value), hexFrom?_hexChars]

/-- What can be read has digits only, by induction on it. -/
theorem hexValue?_of_hexFrom? {value result : Nat} {chars : List Char}
    (read : hexFrom? value chars = some result)
    : ∀ c ∈ chars, hexValue? c ≠ none := by
  induction chars generalizing value with
  | nil => exact fun _ member => absurd member List.not_mem_nil
  | cons c rest ih =>
      rw [hexFrom?] at read
      cases digit : hexValue? c with
      | none =>
          rw [digit] at read
          cases read
      | some place =>
          rw [digit] at read
          refine List.forall_mem_cons.mpr ⟨fun missing => ?_, ih read⟩
          cases digit.symm.trans missing

theorem mem_hexChars {c : Char} {value : Nat} (member : c ∈ hexChars value)
    : ∃ digit : Fin 16, c = hexDigit digit := by
  induction value using Nat.strongRecOn with
  | ind value ih =>
      rw [hexChars] at member
      by_cases small : value < 16
      · rw [if_pos small] at member
        exact ⟨⟨value, small⟩, List.mem_singleton.mp member⟩
      · rw [if_neg small] at member
        rcases List.mem_append.mp member with front | last
        · exact ih (value / 16) (by omega) front
        · exact ⟨⟨value % 16, Nat.mod_lt value (by omega)⟩, List.mem_singleton.mp last⟩

/-- A written number consists of digits. -/
theorem mem_padLeft {c : Char} {width value : Nat}
    (member : c ∈ padLeft '0' width (hexChars value))
    : ∃ digit : Fin 16, c = hexDigit digit := by
  rcases List.mem_append.mp member with zero | own
  · exact ⟨0, List.eq_of_mem_replicate zero⟩
  · exact mem_hexChars own

/-- A character that is no digit stands in no written number. -/
theorem not_mem_padLeft {c : Char} (noDigit : hexValue? c = none) (width value : Nat)
    : c ∉ padLeft '0' width (hexChars value) := by
  intro member
  obtain ⟨digit, rfl⟩ := mem_padLeft member
  cases (hexValue?_hexDigit digit.isLt).symm.trans noDigit

/-- A byte has no more than two digits. -/
theorem length_hexChars_le_two {value : Nat} (small : value < 256)
    : (hexChars value).length ≤ 2 := by
  rw [hexChars]
  split
  · exact Nat.le_succ 1
  · rw [hexChars, if_pos (by omega)]
    exact Nat.le_refl 2

/-- Small digits are read as large ones are. -/
theorem hexFrom?_toLower {chars : List Char}
    (digits : ∀ c ∈ chars, ∃ digit : Fin 16, c = hexDigit digit) (value : Nat)
    : hexFrom? value (chars.map Char.toLower) = hexFrom? value chars := by
  have small
      : ∀ digit : Fin 16, hexValue? (hexDigit digit).toLower = hexValue? (hexDigit digit) := by
    decide
  induction chars generalizing value with
  | nil => rfl
  | cons c rest ih =>
      obtain ⟨first, others⟩ := List.forall_mem_cons.mp digits
      obtain ⟨digit, rfl⟩ := first
      simp only [List.map_cons, hexFrom?, small, ih others]

theorem readHex?_lower (width value : Nat)
    : readHex? (padLeft '0' width ((hexChars value).map Char.toLower)) = some value := by
  have nonempty : padLeft '0' width ((hexChars value).map Char.toLower) ≠ [] :=
    List.append_ne_nil_of_right_ne_nil _ (by simpa using hexChars_ne_nil value)
  rw [readHex?_eq_hexFrom? nonempty, hexFrom?_padLeft,
    hexFrom?_toLower fun _ member => mem_hexChars member, hexFrom?_hexChars]

/-- Numbers that are written alike are equal. -/
theorem hexPadded_injective {width left right : Nat}
    (same : hexPadded width left = hexPadded width right)
    : left = right := by
  have chars : padLeft '0' width (hexChars left) = padLeft '0' width (hexChars right) :=
    String.ofList_injective same
  have read := congrArg (hexFrom? 0) chars
  rw [hexFrom?_padLeft, hexFrom?_padLeft, hexFrom?_hexChars, hexFrom?_hexChars] at read
  exact Option.some.inj read

-----------------------------------------------------------------------------------------
-- Decimal numbers
-----------------------------------------------------------------------------------------

theorem isDigit_hexDigit {value : Nat} (small : value < 10) : isDigit (hexDigit value) := by
  have digits : ∀ digit : Fin 10, isDigit (hexDigit digit.val) := by decide
  exact digits ⟨value, small⟩

theorem toNat_hexDigit {value : Nat} (small : value < 10)
    : (hexDigit value).toNat - 48 = value := by
  have digits : ∀ digit : Fin 10, (hexDigit digit.val).toNat - 48 = digit.val := by decide
  exact digits ⟨value, small⟩

theorem decimalChars_ne_nil (value : Nat) : decimalChars value ≠ [] := by
  rw [decimalChars]
  split
  · exact List.cons_ne_nil _ _
  · exact List.append_ne_nil_of_right_ne_nil _ (List.cons_ne_nil _ _)

theorem isDigit_decimalChars (value : Nat) : ∀ c ∈ decimalChars value, isDigit c := by
  induction value using Nat.strongRecOn with
  | ind value ih =>
      rw [decimalChars]
      split
      · exact List.forall_mem_singleton.mpr (isDigit_hexDigit ‹_›)
      · exact List.forall_mem_append.mpr ⟨ih (value / 10) (by omega),
          List.forall_mem_singleton.mpr (isDigit_hexDigit (Nat.mod_lt _ (by decide)))⟩

/-- A number is the value of its digits. -/
theorem decimalValue_decimalChars (value : Nat) : decimalValue (decimalChars value) = value := by
  induction value using Nat.strongRecOn with
  | ind value ih =>
      rw [decimalChars]
      split
      · simp [decimalValue, toNat_hexDigit ‹_›]
      · have front := ih (value / 10) (by omega)
        have last := toNat_hexDigit (Nat.mod_lt value (show 0 < 10 by decide))
        rw [decimalValue] at front ⊢
        rw [List.foldl_append, front, List.foldl_cons, List.foldl_nil, last]
        omega

/-- Only zero starts with a zero. -/
theorem decimalChars_zero {value : Nat} {rest : List Char}
    (starts : decimalChars value = '0' :: rest)
    : rest = [] := by
  induction value using Nat.strongRecOn generalizing rest with
  | ind value ih =>
      rw [decimalChars] at starts
      split at starts
      · exact (List.cons.inj starts).2.symm
      · obtain ⟨c, front, digits⟩ := List.exists_cons_of_ne_nil (decimalChars_ne_nil (value / 10))
        rw [digits] at starts
        obtain ⟨rfl, -⟩ := List.cons.inj starts
        have zeros := ih (value / 10) (by omega) digits
        have zero := decimalValue_decimalChars (value / 10)
        rw [digits, zeros] at zero
        have : decimalValue ['0'] = 0 := by decide
        omega

end SpeechRom.Text
