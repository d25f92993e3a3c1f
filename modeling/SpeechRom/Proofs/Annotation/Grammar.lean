import Mathlib.Data.Bool.AllAny
import Mathlib.Data.List.Forall2
import Mathlib.Data.Nat.Digits.Defs
import SpeechRom.Annotation.Parser
import SpeechRom.Proofs.Text.Digits
import SpeechRom.Proofs.Text.Words

/-! The grammar of annotation files, said without a reader: what is a number and a range, what a
keyword needs, and what a line says. Files are read exactly as the grammar says, and a file that
is not of the grammar is refused at its first line that is not.
-/

namespace SpeechRom.Annotations

-----------------------------------------------------------------------------------------
-- Numbers
-----------------------------------------------------------------------------------------

/-- The hexadecimal digits of either case with their values. -/
def hexDigits : List (Char × Nat) :=
  "0123456789ABCDEF".toList.zipIdx ++ "0123456789abcdef".toList.zipIdx

/-- A hexadecimal digit and its value. -/
def IsHexDigit (c : Char) (value : Nat) : Prop := (c, value) ∈ hexDigits

/-- What may stand before the digits of a number. -/
def numberMarks : List (List Char) := [[], ['$'], ['0', 'x'], ['0', 'X']]

/-- A number: a mark or none, and then at least one digit, with a value of at most `FFFF`. -/
def IsNumber (word : List Char) (value : Nat) : Prop :=
  ∃ mark ∈ numberMarks, ∃ digits values,
    word = mark ++ digits
    ∧ digits ≠ []
    ∧ List.Forall₂ IsHexDigit digits values
    ∧ value = Nat.ofDigits 16 values.reverse
    ∧ value ≤ 0xFFFF

/-- Nothing above the letter `f` is a digit. -/
theorem toNat_lt_of_hexValue? {c : Char} {value : Nat} (read : Text.hexValue? c = some value)
    : c.toNat < 128 := by
  have below {top : Char} (small : top.toNat < 128) (atMost : c ≤ top) : c.toNat < 128 :=
    Nat.lt_of_le_of_lt (UInt32.le_iff_toNat_le.mp atMost) small
  unfold Text.hexValue? at read
  split at read
  · rename_i range
    exact below (by decide) range.2
  · split at read
    · rename_i range
      exact below (by decide) range.2
    · split at read
      · rename_i range
        exact below (by decide) range.2
      · cases read

/-- Digits are read as their values, and nothing else is. -/
theorem hexValue?_eq_some_iff {c : Char} {value : Nat}
    : Text.hexValue? c = some value ↔ IsHexDigit c value := by
  constructor
  · intro read
    have all : ∀ code : Fin 128,
        (Text.hexValue? (Char.ofNat code)).all fun value =>
          (Char.ofNat code, value) ∈ hexDigits := by
      decide +kernel
    have listed := all ⟨c.toNat, toNat_lt_of_hexValue? read⟩
    simp only [Char.ofNat_toNat, read, Option.all_some, decide_eq_true_eq] at listed
    exact listed
  · intro digit
    have all : ∀ digit ∈ hexDigits, Text.hexValue? digit.1 = some digit.2 := by decide
    exact all (c, value) digit

/-- Digits are read by their places, by induction on them. -/
theorem hexFrom?_eq_some_iff {start value : Nat} {digits : List Char}
    : Text.hexFrom? start digits = some value
      ↔ ∃ values, List.Forall₂ IsHexDigit digits values
          ∧ value = start * 16 ^ values.length + Nat.ofDigits 16 values.reverse := by
  induction digits generalizing start with
  | nil =>
      rw [Text.hexFrom?, Option.some.injEq]
      constructor
      · rintro rfl
        exact ⟨[], .nil, by simp⟩
      · rintro ⟨values, each, rfl⟩
        obtain rfl := List.forall₂_nil_left_iff.mp each
        simp
  | cons c rest ih =>
      have places (digit : Nat) (values : List Nat)
          : start * 16 ^ (digit :: values).length + Nat.ofDigits 16 (digit :: values).reverse
            = (start * 16 + digit) * 16 ^ values.length + Nat.ofDigits 16 values.reverse := by
        rw [List.reverse_cons, Nat.ofDigits_append, Nat.ofDigits_singleton, List.length_cons,
          List.length_reverse]
        ring
      rw [Text.hexFrom?]
      constructor
      · intro read
        cases first : Text.hexValue? c with
        | none =>
            rw [first] at read
            cases read
        | some digit =>
            rw [first] at read
            obtain ⟨values, each, rfl⟩ := ih.mp read
            exact ⟨digit :: values, .cons (hexValue?_eq_some_iff.mp first) each,
              (places digit values).symm⟩
      · rintro ⟨_, each, rfl⟩
        cases each with
        | @cons _ digit _ values first others =>
            rw [hexValue?_eq_some_iff.mpr first]
            exact ih.mpr ⟨values, others, places digit values⟩

/-- A word is a mark before its digits. -/
theorem numberDigits_spec (word : List Char)
    : ∃ mark ∈ numberMarks, word = mark ++ numberDigits word := by
  unfold numberDigits
  split
  · exact ⟨['$'], by decide, rfl⟩
  · exact ⟨['0', 'x'], by decide, rfl⟩
  · exact ⟨['0', 'X'], by decide, rfl⟩
  · exact ⟨[], by decide, rfl⟩

/-- The digits behind a mark are found, since no digit can be taken for a mark or a part of it. -/
theorem numberDigits_append {mark digits : List Char} {values : List Nat}
    (marked : mark ∈ numberMarks) (each : List.Forall₂ IsHexDigit digits values)
    : numberDigits (mark ++ digits) = digits := by
  have noDigit (c : Char) (unread : Text.hexValue? c = none) (value : Nat)
      : ¬ IsHexDigit c value := fun digit => by
    cases unread.symm.trans (hexValue?_eq_some_iff.mpr digit)
  simp only [numberMarks, List.mem_cons, List.not_mem_nil, or_false] at marked
  rcases marked with rfl | rfl | rfl | rfl
  · rw [List.nil_append]
    unfold numberDigits
    split
    · cases each with
      | cons first _ => exact absurd first (noDigit '$' (by decide) _)
    · cases each with
      | cons _ rest =>
          cases rest with
          | cons second _ => exact absurd second (noDigit 'x' (by decide) _)
    · cases each with
      | cons _ rest =>
          cases rest with
          | cons second _ => exact absurd second (noDigit 'X' (by decide) _)
    · rfl
  · rfl
  · rfl
  · rfl

/-- Numbers are read as their values, and nothing else is. -/
theorem readByte?_eq_some_iff {word : List Char} {byte : UInt32}
    : readByte? word = some byte ↔ IsNumber word byte.toNat := by
  constructor
  · intro read
    unfold readByte? at read
    split at read
    · rename_i value digits
      split at read
      · rename_i small
        obtain rfl := Option.some.inj read
        have nonempty : numberDigits word ≠ [] := by
          intro empty
          rw [empty] at digits
          cases digits
        rw [Text.readHex?_eq_hexFrom? nonempty] at digits
        obtain ⟨values, each, total⟩ := hexFrom?_eq_some_iff.mp digits
        obtain ⟨mark, marked, split⟩ := numberDigits_spec word
        have kept : (UInt32.ofNat value).toNat = value :=
          UInt32.toNat_ofNat_of_lt (Nat.lt_of_le_of_lt small (by decide))
        rw [kept]
        refine ⟨mark, marked, _, values, split, nonempty, each, ?_, small⟩
        rw [total, Nat.zero_mul, Nat.zero_add]
      · cases read
    · cases read
  · rintro ⟨mark, marked, digits, values, rfl, nonempty, each, total, small⟩
    have read : Text.readHex? digits = some byte.toNat := by
      rw [Text.readHex?_eq_hexFrom? nonempty]
      exact hexFrom?_eq_some_iff.mpr ⟨values, each, by rw [total, Nat.zero_mul, Nat.zero_add]⟩
    simp only [readByte?, numberDigits_append marked each, read, if_pos small,
      UInt32.ofNat_toNat]

theorem readByte_eq_ok_iff {word : List Char} {byte : UInt32}
    : readByte word = .ok byte ↔ IsNumber word byte.toNat := by
  rw [← readByte?_eq_some_iff, readByte]
  cases readByte? word with
  | none => simp
  | some value => simp

/-- The characters that a number may consist of. -/
def numberChars : List Char := numberMarks.flatten ++ hexDigits.map Prod.fst

theorem IsNumber.chars {word : List Char} {value : Nat} (number : IsNumber word value)
    : ∀ c ∈ word, c ∈ numberChars := by
  obtain ⟨mark, marked, digits, values, rfl, -, each, -, -⟩ := number
  have read := hexFrom?_eq_some_iff.mpr ⟨values, each, (rfl : 0 * 16 ^ values.length + _ = _)⟩
  intro c member
  rcases List.mem_append.mp member with inMark | inDigits
  · exact List.mem_append_left _ (List.mem_flatten.mpr ⟨mark, marked, inMark⟩)
  · obtain ⟨digit, found⟩ := Option.ne_none_iff_exists'.mp
      (Text.hexValue?_of_hexFrom? read c inDigits)
    exact List.mem_append_right _
      (List.mem_map.mpr ⟨(c, digit), hexValue?_eq_some_iff.mp found, rfl⟩)

/-- No number contains a dash. -/
theorem IsNumber.no_dash {word : List Char} {value : Nat} (number : IsNumber word value)
    : ∀ c ∈ word, (c == '-') = false := by
  have others : ∀ c ∈ numberChars, (c == '-') = false := List.all_iff_forall_prop.mp (by decide)
  exact fun c member => others c (number.chars c member)

-----------------------------------------------------------------------------------------
-- Ranges
-----------------------------------------------------------------------------------------

/-- A range of bytes as arguments: one number, two numbers joined by a dash, or two numbers and
whatever follows them. A range does not end before it starts.
-/
inductive IsRange : List (List Char) → ByteRange → Prop
  | single {word : List Char} {byte : UInt32} (number : IsNumber word byte.toNat)
    : IsRange [word] ⟨byte, byte⟩
  | joined {first last : List Char} {range : ByteRange}
    (firstNumber : IsNumber first range.first.toNat) (lastNumber : IsNumber last range.last.toNat)
    (ordered : range.first ≤ range.last)
    : IsRange [first ++ '-' :: last] range
  | pair {first last : List Char} {rest : List (List Char)} {range : ByteRange}
    (firstNumber : IsNumber first range.first.toNat) (lastNumber : IsNumber last range.last.toNat)
    (ordered : range.first ≤ range.last)
    : IsRange (first :: last :: rest) range

theorem readEnds_eq_ok_iff {first last : List Char} {range : ByteRange}
    : readEnds first last = .ok range
      ↔ IsNumber first range.first.toNat
        ∧ IsNumber last range.last.toNat
        ∧ range.first ≤ range.last := by
  rw [← readByte_eq_ok_iff, ← readByte_eq_ok_iff, readEnds]
  cases readByte first with
  | error fault => simp
  | ok low =>
      cases readByte last with
      | error fault => simp
      | ok high =>
          dsimp only
          constructor
          · intro made
            split at made
            · cases made
            · rename_i ordered
              obtain rfl := Except.ok.inj made
              exact ⟨rfl, rfl, UInt32.not_lt.mp ordered⟩
          · rintro ⟨firstEnd, lastEnd, ordered⟩
            rw [Except.ok.inj firstEnd, Except.ok.inj lastEnd, if_neg (UInt32.not_lt.mpr ordered)]

/-- A word has two sides exactly where a single dash stands between them. -/
theorem rangeSides?_eq_some {word first last : List Char}
    (sides : rangeSides? word = some (first, last))
    : word = first ++ '-' :: last := by
  unfold rangeSides? at sides
  split at sides
  · rename_i left right pieces
    split at sides
    · cases sides
    · obtain ⟨rfl, rfl⟩ := Prod.mk.inj (Option.some.inj sides)
      rw [Text.splitOn_eq_splitOnP, ← List.splitOn_eq_splitOnP] at pieces
      have whole : ['-'].intercalate (word.splitOn '-') = word := List.intercalate_splitOn '-'
      rw [pieces] at whole
      simpa [List.intercalate] using whole.symm
  · cases sides

theorem IsNumber.nonempty {word : List Char} {value : Nat} (number : IsNumber word value)
    : word ≠ [] := by
  obtain ⟨mark, -, digits, -, rfl, nonempty, -⟩ := number
  exact List.append_ne_nil_of_right_ne_nil mark nonempty

theorem IsNumber.rangeSides? {word : List Char} {value : Nat} (number : IsNumber word value)
    : Annotations.rangeSides? word = none := by
  have whole : Text.splitOn (· == '-') word = [word] := by
    rw [Text.splitOn_eq_splitOnP, List.splitOnP_eq_singleton number.no_dash]
  simp only [Annotations.rangeSides?, whole]

theorem rangeSides?_joined {first last : List Char} {low high : Nat}
    (firstNumber : IsNumber first low) (lastNumber : IsNumber last high)
    : rangeSides? (first ++ '-' :: last) = some (first, last) := by
  have pieces : Text.splitOn (· == '-') (first ++ '-' :: last) = [first, last] :=
    Text.splitOn_pair rfl firstNumber.no_dash lastNumber.no_dash
  simp [rangeSides?, pieces, firstNumber.nonempty, lastNumber.nonempty]

/-- Ranges are read as they are, and nothing else is. -/
theorem readRange_eq_ok_iff {arguments : List (List Char)} {range : ByteRange}
    : readRange arguments = .ok range ↔ IsRange arguments range := by
  constructor
  · intro read
    unfold readRange at read
    split at read
    · cases read
    · rename_i word
      split at read
      · rename_i first last sides
        obtain ⟨firstNumber, lastNumber, ordered⟩ := readEnds_eq_ok_iff.mp read
        rw [rangeSides?_eq_some sides]
        exact .joined firstNumber lastNumber ordered
      · obtain ⟨low, high⟩ := range
        obtain ⟨firstNumber, lastNumber, -⟩ := readEnds_eq_ok_iff.mp read
        have same := (readByte?_eq_some_iff.mpr firstNumber).symm.trans
          (readByte?_eq_some_iff.mpr lastNumber)
        obtain rfl : low = high := Option.some.inj same
        exact .single firstNumber
    · obtain ⟨firstNumber, lastNumber, ordered⟩ := readEnds_eq_ok_iff.mp read
      exact .pair firstNumber lastNumber ordered
  · intro range
    cases range with
    | single number =>
        simp only [readRange, number.rangeSides?]
        exact readEnds_eq_ok_iff.mpr ⟨number, number, UInt32.le_refl _⟩
    | joined firstNumber lastNumber ordered =>
        simp only [readRange, rangeSides?_joined firstNumber lastNumber]
        exact readEnds_eq_ok_iff.mpr ⟨firstNumber, lastNumber, ordered⟩
    | pair firstNumber lastNumber ordered =>
        exact readEnds_eq_ok_iff.mpr ⟨firstNumber, lastNumber, ordered⟩

-----------------------------------------------------------------------------------------
-- Keywords
-----------------------------------------------------------------------------------------

/-- The annotation that a keyword makes of its arguments. What follows the arguments that it needs
does not count.
-/
inductive Keyword.Denotes : Keyword → List (List Char) → Annotation → Prop
  | code {arguments : List (List Char)} {range : ByteRange} (bytes : IsRange arguments range)
    : Denotes .code arguments (.code range)
  | data {arguments : List (List Char)} {range : ByteRange} (bytes : IsRange arguments range)
    : Denotes .data arguments (.data range)
  | operand {arguments : List (List Char)} {range : ByteRange} (bytes : IsRange arguments range)
    : Denotes .operand arguments (.operand range)
  | origin {value : List Char} {rest : List (List Char)} {byte : UInt32}
    (number : IsNumber value byte.toNat)
    : Denotes .origin (value :: rest) (.origin byte)
  | symbol {name value : List Char} {rest : List (List Char)} {byte : UInt32}
    (number : IsNumber value byte.toNat)
    : Denotes .symbol (name :: value :: rest) (.symbol (String.ofList name) byte)

theorem map_eq_ok_iff {α β : Type} {outcome : Except ArgumentFault α} {make : α → β} {made : β}
    : outcome.map make = .ok made ↔ ∃ value, outcome = .ok value ∧ make value = made := by
  cases outcome with
  | error fault => simp [Except.map]
  | ok value => simp [Except.map]

/-- Arguments are read as what they denote, and nothing else is. -/
theorem Keyword.read_eq_ok_iff {keyword : Keyword} {arguments : List (List Char)}
    {hint : Annotation}
    : keyword.read arguments = .ok hint ↔ keyword.Denotes arguments hint := by
  constructor
  · intro read
    unfold Keyword.read at read
    split at read
    · obtain ⟨range, bytes, rfl⟩ := map_eq_ok_iff.mp read
      exact .code (readRange_eq_ok_iff.mp bytes)
    · obtain ⟨range, bytes, rfl⟩ := map_eq_ok_iff.mp read
      exact .data (readRange_eq_ok_iff.mp bytes)
    · obtain ⟨range, bytes, rfl⟩ := map_eq_ok_iff.mp read
      exact .operand (readRange_eq_ok_iff.mp bytes)
    · obtain ⟨byte, number, rfl⟩ := map_eq_ok_iff.mp read
      exact .origin (readByte_eq_ok_iff.mp number)
    · cases read
    · obtain ⟨byte, number, rfl⟩ := map_eq_ok_iff.mp read
      exact .symbol (readByte_eq_ok_iff.mp number)
    · cases read
  · intro denotes
    cases denotes with
    | code bytes | data bytes | operand bytes =>
        exact map_eq_ok_iff.mpr ⟨_, readRange_eq_ok_iff.mpr bytes, rfl⟩
    | origin number | symbol number =>
        exact map_eq_ok_iff.mpr ⟨_, readByte_eq_ok_iff.mpr number, rfl⟩

theorem Keyword.ofName?_eq_some_iff {name : String} {keyword : Keyword}
    : Keyword.ofName? name = some keyword ↔ name = keyword.name := by
  constructor
  · intro found
    unfold Keyword.ofName? at found
    split at found
    all_goals cases found
    all_goals rfl
  · rintro rfl
    cases keyword <;> rfl

-----------------------------------------------------------------------------------------
-- Lines
-----------------------------------------------------------------------------------------

/-- The line starts with a keyword, in letters of either case, and these are its arguments. -/
def Commands (line : List Char) (keyword : Keyword) (arguments : List (List Char)) : Prop :=
  ∃ word,
    Text.words (line.takeWhile (· != ';')) = word :: arguments
    ∧ Text.lowerChars word = keyword.name.toList

/-- The arguments of the line are such as its keyword needs, if it has one. -/
def WellFormed (line : List Char) : Prop :=
  ∀ keyword arguments, Commands line keyword arguments
    → ∃ hint, keyword.Denotes arguments hint

/-- What a line contributes: nothing without a keyword, and else one annotation. -/
inductive Contributes (line : List Char) : List Annotation → Prop
  | nothing (other : ∀ keyword arguments, ¬ Commands line keyword arguments) : Contributes line []
  | hint {keyword : Keyword} {arguments : List (List Char)} {hint : Annotation}
    (command : Commands line keyword arguments)
    (denotes : keyword.Denotes arguments hint)
    : Contributes line [hint]

theorem commands_iff {line : List Char} {keyword : Keyword} {arguments : List (List Char)}
    : Commands line keyword arguments ↔ Line.ofChars line = .command keyword arguments := by
  constructor
  · rintro ⟨word, words, lower⟩
    have named : Keyword.ofName? (String.ofList (Text.lowerChars word)) = some keyword := by
      rw [Keyword.ofName?_eq_some_iff, lower, String.ofList_toList]
    simp only [Line.ofChars, lineWords, words, named]
  · intro command
    unfold Line.ofChars at command
    split at command
    · cases command
    · rename_i word rest words
      dsimp only at command
      split at command
      · rename_i found named
        obtain ⟨rfl, rfl⟩ := Line.command.inj command
        refine ⟨word, words, ?_⟩
        rw [← Keyword.ofName?_eq_some_iff.mp named, String.toList_ofList]
      · cases command

/-- A line contributes one thing only. -/
theorem Contributes.unique : Relator.RightUnique Contributes := by
  intro line left right leftShare rightShare
  cases leftShare with
  | nothing other =>
      cases rightShare with
      | nothing => rfl
      | hint command => exact absurd command (other _ _)
  | hint command denotes =>
      cases rightShare with
      | nothing other => exact absurd command (other _ _)
      | hint otherCommand otherDenotes =>
          obtain ⟨rfl, rfl⟩ := Line.command.inj
            ((commands_iff.mp command).symm.trans (commands_iff.mp otherCommand))
          have same := (Keyword.read_eq_ok_iff.mpr denotes).symm.trans
            (Keyword.read_eq_ok_iff.mpr otherDenotes)
          rw [Except.ok.inj same]

/-- The lines that contribute something, if only nothing, are those that are well formed. -/
theorem wellFormed_iff {line : List Char}
    : WellFormed line ↔ ∃ annotations, Contributes line annotations := by
  constructor
  · intro formed
    by_cases command : ∃ keyword arguments, Commands line keyword arguments
    · obtain ⟨keyword, arguments, command⟩ := command
      obtain ⟨hint, denotes⟩ := formed keyword arguments command
      exact ⟨_, .hint command denotes⟩
    · exact ⟨_, .nothing fun keyword arguments found => command ⟨keyword, arguments, found⟩⟩
  · rintro ⟨annotations, share⟩ keyword arguments command
    cases share with
    | nothing other => exact absurd command (other _ _)
    | hint found denotes =>
        obtain ⟨rfl, rfl⟩ := Line.command.inj
          ((commands_iff.mp found).symm.trans (commands_iff.mp command))
        exact ⟨_, denotes⟩

-----------------------------------------------------------------------------------------
-- Files
-----------------------------------------------------------------------------------------

/-- The first line that is not well formed comes after these lines and has this keyword. -/
structure Offends (lines before : List (List Char)) (keyword : Keyword) : Prop where
  early : ∀ line ∈ before, WellFormed line
  here : ∃ line after arguments,
    lines = before ++ line :: after
    ∧ Commands line keyword arguments
    ∧ ¬ ∃ hint, keyword.Denotes arguments hint

/-- What reading lines comes to, when the first of them has the given number and earlier ones have
contributed the given annotations.
-/
inductive ReadsTo (number : Nat) (earlier : List Annotation) (lines : List (List Char))
    : Except AnnotationError Annotations → Prop
  | finished {said : List (List Annotation)} (shares : List.Forall₂ Contributes lines said)
    : ReadsTo number earlier lines (.ok (earlier ++ said.flatten))
  | refused {before : List (List Char)} {keyword : Keyword} {fault : ArgumentFault}
    (offends : Offends lines before keyword)
    : ReadsTo number earlier lines
        (.error (.badArgument (number + before.length) keyword.name fault))

/-- A line that is well formed comes before whatever the others come to. -/
theorem ReadsTo.cons {number : Nat} {earlier said : List Annotation} {line : List Char}
    {rest : List (List Char)} {outcome : Except AnnotationError Annotations}
    (share : Contributes line said) (later : ReadsTo (number + 1) (earlier ++ said) rest outcome)
    : ReadsTo number earlier (line :: rest) outcome := by
  cases later with
  | finished shares =>
      rw [List.append_assoc, ← List.flatten_cons]
      exact .finished (.cons share shares)
  | @refused before keyword fault offends =>
      obtain ⟨early, found, after, arguments, rfl, here⟩ := offends
      have count : number + 1 + before.length = number + (line :: before).length := by
        rw [List.length_cons]
        omega
      rw [count]
      refine .refused ⟨List.forall_mem_cons.mpr ⟨wellFormed_iff.mpr ⟨_, share⟩, early⟩, ?_⟩
      exact ⟨found, after, arguments, rfl, here⟩

/-- Lines are read up to the end or to the first that is not well formed, by induction on them. -/
theorem readLines_readsTo (number : Nat) (annotations : List Annotation) (notices : List Notice)
    (lines : List (List Char))
    : ReadsTo number annotations.reverse lines
        (readLines number annotations notices lines).outcome := by
  induction lines generalizing number annotations notices with
  | nil =>
      have finished : ReadsTo number annotations.reverse [] _ := .finished .nil
      rw [List.flatten_nil, List.append_nil] at finished
      exact finished
  | cons line rest ih =>
      have silent (other : ∀ keyword arguments, Line.ofChars line ≠ .command keyword arguments)
          (notices : List Notice)
          : ReadsTo number annotations.reverse (line :: rest)
              (readLines (number + 1) annotations notices rest).outcome := by
        have share : Contributes line [] := .nothing fun keyword arguments command =>
          other keyword arguments (commands_iff.mp command)
        have later := ih (number + 1) annotations notices
        rw [← List.append_nil annotations.reverse] at later
        exact .cons share later
      rw [readLines]
      cases content : Line.ofChars line with
      | blank => exact silent (by simp [content]) notices
      | unknown keyword => exact silent (by simp [content]) _
      | command keyword arguments =>
          have command := commands_iff.mpr content
          dsimp only
          cases read : keyword.read arguments with
          | ok hint =>
              have share := Contributes.hint command (Keyword.read_eq_ok_iff.mp read)
              have later := ih (number + 1) (hint :: annotations)
                (extraNotices number keyword arguments ++ notices)
              rw [List.reverse_cons] at later
              exact .cons share later
          | error fault =>
              have offends : Offends (line :: rest) [] keyword := by
                refine ⟨fun _ member => absurd member List.not_mem_nil, line, rest, arguments, rfl,
                  command, ?_⟩
                rintro ⟨hint, denotes⟩
                cases (Keyword.read_eq_ok_iff.mpr denotes).symm.trans read
              exact .refused offends

/-- Lines are well formed if all of them contribute, by induction on them. -/
theorem forall_wellFormed_iff {lines : List (List Char)}
    : (∀ line ∈ lines, WellFormed line) ↔ ∃ said, List.Forall₂ Contributes lines said := by
  induction lines with
  | nil => exact ⟨fun _ => ⟨[], .nil⟩, fun _ _ member => absurd member List.not_mem_nil⟩
  | cons line rest ih =>
      rw [List.forall_mem_cons, ih, wellFormed_iff]
      constructor
      · rintro ⟨⟨first, share⟩, said, shares⟩
        exact ⟨first :: said, .cons share shares⟩
      · rintro ⟨_, all⟩
        cases all with
        | cons share shares => exact ⟨⟨_, share⟩, _, shares⟩

theorem Offends.not_wellFormed {lines before : List (List Char)} {keyword : Keyword}
    (offends : Offends lines before keyword)
    : ¬ ∀ line ∈ lines, WellFormed line := by
  obtain ⟨-, line, after, arguments, rfl, command, faulty⟩ := offends
  intro formed
  exact faulty (formed line (List.mem_append_right before List.mem_cons_self) _ _ command)

/-- Lines that contribute are read to the end. -/
theorem readLines_eq_ok {lines : List (List Char)} {said : List (List Annotation)}
    (shares : List.Forall₂ Contributes lines said) (number : Nat) (annotations : List Annotation)
    (notices : List Notice)
    : (readLines number annotations notices lines).outcome
      = .ok (annotations.reverse ++ said.flatten) := by
  have reads := readLines_readsTo number annotations notices lines
  generalize (readLines number annotations notices lines).outcome = outcome at reads
  cases reads with
  | finished others => rw [List.right_unique_forall₂' Contributes.unique shares others]
  | refused offends =>
      exact absurd (forall_wellFormed_iff.mpr ⟨said, shares⟩) offends.not_wellFormed

/-- A carriage return at the end of a line is a blank or a part of a comment. -/
theorem lineWords_return (line : List Char) : lineWords (line ++ ['\r']) = lineWords line := by
  unfold lineWords
  rw [List.takeWhile_append]
  split
  · rename_i uncut
    have whole : line.takeWhile (· != ';') = line :=
      (List.takeWhile_prefix _).eq_of_length uncut
    rw [whole]
    exact (Text.words_append_cons (by decide) line []).trans (List.append_nil _)
  · rfl

theorem ofChars_withoutReturn (line : List Char)
    : Line.ofChars (Text.withoutReturn line) = Line.ofChars line := by
  have words : lineWords (Text.withoutReturn line) = lineWords line := by
    rcases Text.withoutReturn_cases line with same | returns
    · rw [same]
    · rw [← lineWords_return, ← returns]
  simp only [Line.ofChars, words]

/-- Reading depends on what stands in the lines only, by induction on them. -/
theorem readLines_congr {lines others : List (List Char)}
    (same : lines.map Line.ofChars = others.map Line.ofChars) (number : Nat)
    (annotations : List Annotation) (notices : List Notice)
    : readLines number annotations notices lines = readLines number annotations notices others := by
  induction lines generalizing others number annotations notices with
  | nil => rw [List.map_eq_nil_iff.mp same.symm]
  | cons line rest ih =>
      obtain ⟨other, more, rfl, first, later⟩ := List.map_eq_cons_iff.mp same.symm
      simp only [readLines, first, ih later.symm]

/-- An empty line at the end changes nothing, by induction on the lines before it. -/
theorem readLines_concat_nil (lines : List (List Char)) (number : Nat)
    (annotations : List Annotation) (notices : List Notice)
    : readLines number annotations notices (lines ++ [[]])
      = readLines number annotations notices lines := by
  induction lines generalizing number annotations notices with
  | nil => rfl
  | cons line rest ih => simp only [List.cons_append, readLines, ih]

/-- A file is read line by line, whichever way its lines end. -/
theorem parse_eq_fileLines (text : String)
    : parse text = readLines 1 [] [] (Text.fileLines text) := by
  obtain ⟨ended, last, pieces, ends⟩ := Text.lines_cases text
  have chomped : (ended.map Text.withoutReturn).map Line.ofChars = ended.map Line.ofChars := by
    rw [List.map_map]
    exact List.map_congr_left fun line _ => ofChars_withoutReturn line
  rw [parse, pieces]
  rcases ends with ⟨rfl, lines⟩ | lines
  · rw [lines, readLines_concat_nil]
    exact readLines_congr chomped.symm _ _ _
  · rw [lines]
    refine readLines_congr ?_ _ _ _
    rw [List.map_append, List.map_append, chomped]

/-- An annotation file is read exactly as its grammar says. Reading succeeds if and only if every
line with a keyword has the arguments that its keyword needs, and it gives the annotations of
these lines in order; other lines contribute nothing. Where it fails, the error has the number and
the keyword of the first line whose arguments are wrong.
-/
theorem parse_follows_grammar (text : String)
    : let lines := Text.fileLines text
      let outcome := (parse text).outcome
      (∀ annotations, outcome = .ok annotations
        ↔ ∃ said, List.Forall₂ Contributes lines said ∧ annotations = said.flatten)
      ∧ ((∃ annotations, outcome = .ok annotations) ↔ ∀ line ∈ lines, WellFormed line)
      ∧ ((¬ ∀ line ∈ lines, WellFormed line)
        → ∃ before keyword fault,
            Offends lines before keyword
            ∧ outcome = .error (.badArgument (before.length + 1) keyword.name fault)) := by
  intro lines outcome
  have parsed : parse text = readLines 1 [] [] lines := parse_eq_fileLines text
  have read {said : List (List Annotation)} (shares : List.Forall₂ Contributes lines said)
      : outcome = .ok said.flatten := by
    dsimp only [outcome]
    rw [parsed]
    exact readLines_eq_ok shares 1 [] []
  have reads : ReadsTo 1 [] lines outcome := by
    dsimp only [outcome]
    rw [parsed]
    exact readLines_readsTo 1 [] [] lines
  clear_value outcome
  refine ⟨fun annotations => ⟨?_, ?_⟩, ⟨?_, ?_⟩, ?_⟩
  · rintro rfl
    cases reads with
    | finished shares => exact ⟨_, shares, rfl⟩
  · rintro ⟨said, shares, rfl⟩
    exact read shares
  · rintro ⟨annotations, rfl⟩
    cases reads with
    | finished shares => exact forall_wellFormed_iff.mpr ⟨_, shares⟩
  · intro formed
    obtain ⟨said, shares⟩ := forall_wellFormed_iff.mp formed
    exact ⟨_, read shares⟩
  · intro faulty
    cases reads with
    | finished shares => exact absurd (forall_wellFormed_iff.mpr ⟨_, shares⟩) faulty
    | @refused before keyword fault offends =>
        exact ⟨before, keyword, fault, offends, by rw [Nat.add_comm]⟩

end SpeechRom.Annotations
