import SpeechRom.Proofs.Annotation.Grammar

/-! Annotation files as they are written: a line for each annotation, in any layout, and lines
without one in between. Reading gives back the annotations that were written, since a word is kept
whole by the white space around it and a comment is cut off before words are looked for.
-/

namespace SpeechRom.Annotations

-----------------------------------------------------------------------------------------
-- Words
-----------------------------------------------------------------------------------------

/-- Characters that are read as one word: no white space, and nothing that starts a comment. -/
def IsWord (chars : List Char) : Prop :=
  chars ≠ [] ∧ ∀ c ∈ chars, Text.isBlank c = false ∧ c ≠ ';'

instance (chars : List Char) : Decidable (IsWord chars) :=
  decidable_of_iff (chars ≠ [] ∧ chars.all fun c => Text.isBlank c = false ∧ c ≠ ';')
    (and_congr_right' List.all_iff_forall_prop)

theorem IsWord.join {left right : List Char} {c : Char} (leftWord : IsWord left)
    (rightWord : IsWord right) (plain : Text.isBlank c = false ∧ c ≠ ';')
    : IsWord (left ++ c :: right) := by
  refine ⟨List.append_ne_nil_of_left_ne_nil leftWord.1 _, ?_⟩
  exact List.forall_mem_append.mpr ⟨leftWord.2, List.forall_mem_cons.mpr ⟨plain, rightWord.2⟩⟩

theorem IsNumber.isWord {word : List Char} {value : Nat} (number : IsNumber word value)
    : IsWord word := by
  have plain : ∀ c ∈ numberChars, Text.isBlank c = false ∧ c ≠ ';' :=
    List.all_iff_forall_prop.mp (by decide)
  exact ⟨number.nonempty, fun c member => plain c (number.chars c member)⟩

/-- A range in one argument is one word. -/
theorem IsRange.isWord {word : List Char} {range : ByteRange} (bytes : IsRange [word] range)
    : IsWord word := by
  cases bytes with
  | single number => exact number.isWord
  | joined firstNumber lastNumber => exact firstNumber.isWord.join lastNumber.isWord (by decide)

/-- A byte address is written as a number. -/
theorem isNumber_byteText {byte : UInt32} (small : byte ≤ 0xFFFF)
    : IsNumber (ByteRange.byteText byte).toList byte.toNat := by
  have written : (ByteRange.byteText byte).toList
      = '$' :: Text.padLeft '0' 4 (Text.hexChars byte.toNat) := by
    rw [ByteRange.byteText, String.toList_append, Text.hexPadded, String.toList_ofList,
      String.toList_ofList]
    rfl
  have bounded : byte.toNat ≤ 0xFFFF := UInt32.le_iff_toNat_le.mp small
  rw [← readByte?_eq_some_iff, written]
  simp only [readByte?, numberDigits, Text.readHex?_padLeft, if_pos bounded, UInt32.ofNat_toNat]

/-- A range is written as one argument, whether it has one byte or more. -/
theorem isRange_text {range : ByteRange} (ordered : range.first ≤ range.last)
    (small : range.last ≤ 0xFFFF)
    : IsRange [range.text.toList] range := by
  have firstNumber := isNumber_byteText (UInt32.le_trans ordered small)
  have lastNumber := isNumber_byteText small
  rw [ByteRange.text]
  split
  · rename_i single
    obtain ⟨first, last⟩ := range
    obtain rfl : first = last := single
    exact .single firstNumber
  · rw [String.toList_append, String.toList_append, List.append_assoc]
    exact .joined firstNumber lastNumber ordered

-----------------------------------------------------------------------------------------
-- Annotations
-----------------------------------------------------------------------------------------

/-- The keyword that an annotation is written with. -/
def keywordOf : Annotation → Keyword
  | .code _ => .code
  | .data _ => .data
  | .operand _ => .operand
  | .origin _ => .origin
  | .symbol _ _ => .symbol

/-- The arguments that an annotation is written with. -/
def argumentsOf : Annotation → List (List Char)
  | .code range | .data range | .operand range => [range.text.toList]
  | .origin byte => [(ByteRange.byteText byte).toList]
  | .symbol name byte => [name.toList, (ByteRange.byteText byte).toList]

/-- An annotation that can be written: its addresses have four digits, its range does not end
before it starts, and its name is a word.
-/
def IsWritable : Annotation → Prop
  | .code range | .data range | .operand range => range.first ≤ range.last ∧ range.last ≤ 0xFFFF
  | .origin byte => byte ≤ 0xFFFF
  | .symbol name byte => IsWord name.toList ∧ byte ≤ 0xFFFF

instance : DecidablePred IsWritable
  | .code _ | .data _ | .operand _ | .symbol _ _ => inferInstanceAs (Decidable (_ ∧ _))
  | .origin _ => inferInstanceAs (Decidable (_ ≤ _))

/-- The written arguments denote the annotation. -/
theorem denotes_argumentsOf {hint : Annotation} (writable : IsWritable hint)
    : (keywordOf hint).Denotes (argumentsOf hint) hint := by
  cases hint with
  | code range => exact .code (isRange_text writable.1 writable.2)
  | data range => exact .data (isRange_text writable.1 writable.2)
  | operand range => exact .operand (isRange_text writable.1 writable.2)
  | origin byte => exact .origin (isNumber_byteText writable)
  | symbol name byte =>
      have denotes : Keyword.symbol.Denotes (argumentsOf (.symbol name byte))
          (.symbol (String.ofList name.toList) byte) :=
        .symbol (isNumber_byteText writable.2)
      rw [String.ofList_toList] at denotes
      exact denotes

theorem isWord_argumentsOf {hint : Annotation} (writable : IsWritable hint)
    : ∀ argument ∈ argumentsOf hint, IsWord argument := by
  cases hint with
  | code range | data range | operand range =>
      exact List.forall_mem_singleton.mpr (isRange_text writable.1 writable.2).isWord
  | origin byte => exact List.forall_mem_singleton.mpr (isNumber_byteText writable).isWord
  | symbol name byte =>
      refine List.forall_mem_cons.mpr ⟨writable.1, ?_⟩
      exact List.forall_mem_singleton.mpr (isNumber_byteText writable.2).isWord

-----------------------------------------------------------------------------------------
-- Capitals
-----------------------------------------------------------------------------------------

/-- A keyword with capitals at the given places. -/
def Keyword.spelled (keyword : Keyword) (capital : Nat → Bool) : List Char :=
  keyword.name.toList.mapIdx fun place letter => if capital place then letter.toUpper else letter

theorem Keyword.spelled_chars {keyword : Keyword} {capital : Nat → Bool}
    : ∀ c ∈ keyword.spelled capital, c.toNat < 128 ∧ Text.isBlank c = false ∧ c ≠ ';' := by
  have letters : ∀ letter ∈ keyword.name.toList, ∀ isCapital : Bool,
      let c := if isCapital then letter.toUpper else letter
      c.toNat < 128 ∧ Text.isBlank c = false ∧ c ≠ ';' := by
    cases keyword <;> exact List.all_iff_forall_prop.mp (by decide)
  intro c member
  obtain ⟨place, inside, rfl⟩ := List.mem_mapIdx.mp member
  exact letters _ (List.getElem_mem inside) (capital place)

theorem Keyword.isWord_spelled (keyword : Keyword) (capital : Nat → Bool)
    : IsWord (keyword.spelled capital) := by
  have named : keyword.name.toList ≠ [] := by cases keyword <;> decide
  refine ⟨fun empty => named (List.mapIdx_eq_nil_iff.mp empty), ?_⟩
  exact fun c member => (spelled_chars c member).2

/-- Below the code point 128, the only capitals are the letters from `A` to `Z`. -/
theorem lowerChar_ascii {c : Char} (ascii : c.toNat < 128) : Text.lowerChar c = c.toLower := by
  have high : ∀ run ∈ Text.caseRuns.tail, 128 ≤ run.first := by decide +kernel
  have beyond : Text.caseRuns.tail.find? (fun run => run.covers c.toNat) = none := by
    refine List.find?_eq_none.mpr fun run member covered => ?_
    simp only [Text.CaseRun.covers, Bool.and_eq_true, decide_eq_true_eq] at covered
    have above := high run member
    omega
  have letters : ∀ code : Fin 128,
      (if Text.CaseRun.covers ⟨0x41, 0x5A, 1, 32⟩ code then Char.ofNat (code + 32)
        else Char.ofNat code)
      = (Char.ofNat code).toLower := by
    decide +kernel
  have split : Text.caseRuns = ⟨0x41, 0x5A, 1, 32⟩ :: Text.caseRuns.tail := rfl
  have lower := letters ⟨c.toNat, ascii⟩
  rw [Char.ofNat_toNat] at lower
  rw [← lower, Text.lowerChar, split, List.find?_cons, beyond]
  cases Text.CaseRun.covers ⟨0x41, 0x5A, 1, 32⟩ c.toNat with
  | true => rfl
  | false => rfl

/-- Text without letters from elsewhere is lower-cased letter by letter, by induction on it. -/
theorem lowerAfter_ascii {chars : List Char} (ascii : ∀ c ∈ chars, c.toNat < 128)
    (before : List Char)
    : Text.lowerAfter before chars = chars.map Char.toLower := by
  induction chars generalizing before with
  | nil => rfl
  | cons c rest ih =>
      obtain ⟨small, others⟩ := List.forall_mem_cons.mp ascii
      have alone : Text.lowerIn before c rest = [c.toLower] := by
        rw [Text.lowerIn, if_neg (by omega), if_neg (by omega), lowerChar_ascii small]
      rw [Text.lowerAfter, alone, ih others]
      rfl

/-- Capitals in a keyword do not count. -/
theorem Keyword.lowerChars_spelled (keyword : Keyword) (capital : Nat → Bool)
    : Text.lowerChars (keyword.spelled capital) = keyword.name.toList := by
  have letters : ∀ letter ∈ keyword.name.toList, ∀ isCapital : Bool,
      (if isCapital then letter.toUpper else letter).toLower = letter := by
    cases keyword <;> exact List.all_iff_forall_prop.mp (by decide)
  rw [Text.lowerChars, lowerAfter_ascii fun c member => (spelled_chars c member).1, spelled]
  refine List.ext_getElem (by simp) fun place _ inside => ?_
  rw [List.getElem_map, List.getElem_mapIdx]
  exact letters _ (List.getElem_mem inside) (capital place)

-----------------------------------------------------------------------------------------
-- Layout
-----------------------------------------------------------------------------------------

/-- White space inside a line. -/
structure Blanks where
  chars : List Char
  blank : chars.all Text.isBlank
  inLine : '\n' ∉ chars

/-- White space that keeps words apart. -/
structure Gap extends Blanks where
  nonempty : chars ≠ []

/-- What may stand behind the words of a line: white space, and a comment if there is one. -/
structure Remark where
  blanks : Blanks
  comment : Option (List Char)
  inLine : ∀ text ∈ comment, '\n' ∉ text

def Remark.chars (remark : Remark) : List Char :=
  remark.blanks.chars ++ remark.comment.elim [] (';' :: ·)

/-- The layout of a line: the capitals of its keyword, the white space before the keyword and before
each of the arguments, and what stands behind them.
-/
structure Layout where
  capital : Nat → Bool
  indent : Blanks
  gap : Nat → Gap
  remark : Remark

/-- Arguments with a gap before each of them. -/
def spaced (gap : Nat → Gap) (arguments : List (List Char)) : List Char :=
  (arguments.mapIdx fun place argument => (gap place).chars ++ argument).flatten

/-- The words of a line and the white space before them. -/
def Layout.front (layout : Layout) (hint : Annotation) : List Char :=
  layout.indent.chars
    ++ ((keywordOf hint).spelled layout.capital ++ spaced layout.gap (argumentsOf hint))

/-- A line of an annotation file. -/
inductive Item where
  | filler (remark : Remark)
  | entry (layout : Layout) (hint : Annotation)

namespace Item

def hint? : Item → Option Annotation
  | filler _ => none
  | entry _ hint => some hint

/-- The line as it is written. -/
def line : Item → List Char
  | filler remark => remark.chars
  | entry layout hint => layout.front hint ++ layout.remark.chars

end Item

/-- The annotations of a file. -/
def said (items : List Item) : Annotations := items.filterMap Item.hint?

/-- The text of a file. -/
def fileText (items : List Item) : String :=
  String.ofList (['\n'].intercalate (items.map Item.line))

/-- Neither the end of a line nor the start of a comment is in the white space inside a line. -/
theorem Blanks.inner (blanks : Blanks) : ∀ c ∈ blanks.chars, c ≠ ';' ∧ c ≠ '\n' := by
  intro c member
  refine ⟨?_, fun newline => blanks.inLine (newline ▸ member)⟩
  rintro rfl
  cases List.all_eq_true.mp blanks.blank ';' member

theorem IsWord.inner {word : List Char} (isWord : IsWord word)
    : ∀ c ∈ word, c ≠ ';' ∧ c ≠ '\n' := by
  intro c member
  refine ⟨(isWord.2 c member).2, ?_⟩
  rintro rfl
  cases (isWord.2 '\n' member).1

/-- The words of a line stay inside it and before its comment. -/
theorem Layout.front_inner {hint : Annotation} (writable : IsWritable hint)
    (layout : Layout)
    : ∀ c ∈ layout.front hint, c ≠ ';' ∧ c ≠ '\n' := by
  have spaces : ∀ c ∈ spaced layout.gap (argumentsOf hint), c ≠ ';' ∧ c ≠ '\n' := by
    intro c member
    obtain ⟨part, found, inPart⟩ := List.mem_flatten.mp member
    obtain ⟨place, inside, rfl⟩ := List.mem_mapIdx.mp found
    rcases List.mem_append.mp inPart with inGap | inArgument
    · exact (layout.gap place).inner c inGap
    · exact (isWord_argumentsOf writable _ (List.getElem_mem inside)).inner c inArgument
  refine List.forall_mem_append.mpr ⟨layout.indent.inner, List.forall_mem_append.mpr ⟨?_, spaces⟩⟩
  exact ((keywordOf hint).isWord_spelled layout.capital).inner

/-- Nothing of a comment is looked at. -/
theorem Remark.takeWhile_append {front : List Char} (uncut : ∀ c ∈ front, c ≠ ';')
    (remark : Remark)
    : (front ++ remark.chars).takeWhile (· != ';') = front ++ remark.blanks.chars := by
  have kept : ∀ c ∈ front ++ remark.blanks.chars, (c != ';') = true := by
    refine List.forall_mem_append.mpr ⟨?_, ?_⟩
    · exact fun c member => bne_iff_ne.mpr (uncut c member)
    · exact fun c member => bne_iff_ne.mpr (remark.blanks.inner c member).1
  have dropped : (remark.comment.elim [] (';' :: ·)).takeWhile (· != ';') = [] := by
    cases remark.comment with
    | none => rfl
    | some text => rfl
  rw [Remark.chars, ← List.append_assoc, List.takeWhile_append_of_pos kept, dropped,
    List.append_nil]

/-- The words of a line are those that were written, by induction on the arguments. -/
theorem words_spaced {word : List Char} {arguments : List (List Char)} (isWord : IsWord word)
    (isWords : ∀ argument ∈ arguments, IsWord argument) (gap : Nat → Gap) (last : Blanks)
    : Text.words (word ++ (spaced gap arguments ++ last.chars)) = word :: arguments := by
  have plain {word : List Char} (isWord : IsWord word) : ∀ c ∈ word, Text.isBlank c = false :=
    fun c member => (isWord.2 c member).1
  induction arguments generalizing word gap with
  | nil =>
      by_cases ended : last.chars = []
      · rw [ended]
        exact (congrArg Text.words (List.append_nil word)).trans
          (Text.words_eq_singleton isWord.1 (plain isWord))
      · have alone := Text.words_word_blanks_append isWord.1 (plain isWord) ended
          (List.all_eq_true.mp last.blank) []
        rw [List.append_nil] at alone
        exact alone
  | cons argument rest ih =>
      obtain ⟨first, others⟩ := List.forall_mem_cons.mp isWords
      have split : spaced gap (argument :: rest)
          = (gap 0).chars ++ (argument ++ spaced (fun place => gap (place + 1)) rest) := by
        rw [spaced, List.mapIdx_cons, List.flatten_cons, List.append_assoc]
        rfl
      rw [split, List.append_assoc, List.append_assoc,
        Text.words_word_blanks_append isWord.1 (plain isWord) (gap 0).nonempty
          (List.all_eq_true.mp (gap 0).blank),
        ih first others]

-----------------------------------------------------------------------------------------
-- Files
-----------------------------------------------------------------------------------------

/-- A line contributes the annotation that is written on it, if there is one. -/
theorem Item.contributes {item : Item} (writable : ∀ hint ∈ item.hint?, IsWritable hint)
    : Contributes item.line item.hint?.toList := by
  cases item with
  | filler remark =>
      refine .nothing fun keyword arguments command => ?_
      obtain ⟨word, words, -⟩ := command
      have cut := remark.takeWhile_append (List.forall_mem_nil (· ≠ ';'))
      have wordless := Text.words_blanks_append (List.all_eq_true.mp remark.blanks.blank) []
      rw [List.append_nil, Text.words_nil] at wordless
      rw [Item.line, ← List.nil_append remark.chars, cut, List.nil_append, wordless] at words
      cases words
  | entry layout hint =>
      have allowed : IsWritable hint := writable hint rfl
      refine .hint ⟨_, ?_, Keyword.lowerChars_spelled _ layout.capital⟩
        (denotes_argumentsOf allowed)
      rw [Item.line,
        layout.remark.takeWhile_append fun c member => (layout.front_inner allowed c member).1,
        Layout.front, List.append_assoc, List.append_assoc,
        Text.words_blanks_append (List.all_eq_true.mp layout.indent.blank)]
      exact words_spaced (Keyword.isWord_spelled _ _) (isWord_argumentsOf allowed) _ _

theorem Remark.inLine_chars (remark : Remark) : '\n' ∉ remark.chars := by
  rw [Remark.chars, List.mem_append, not_or]
  refine ⟨remark.blanks.inLine, ?_⟩
  cases comment : remark.comment with
  | none => exact List.not_mem_nil
  | some text => exact List.not_mem_cons_of_ne_of_not_mem (by decide) (remark.inLine text comment)

theorem Item.inLine {item : Item} (writable : ∀ hint ∈ item.hint?, IsWritable hint)
    : '\n' ∉ item.line := by
  cases item with
  | filler remark => exact remark.inLine_chars
  | entry layout hint =>
      rw [Item.line, List.mem_append, not_or]
      refine ⟨fun member => ?_, layout.remark.inLine_chars⟩
      exact (layout.front_inner (writable hint rfl) '\n' member).2 rfl

/-- The lines of a file are found again. -/
theorem lines_fileText {items : List Item} (nonempty : items ≠ [])
    (inLine : ∀ item ∈ items, '\n' ∉ item.line)
    : Text.lines (fileText items) = items.map Item.line := by
  rw [Text.lines, Text.splitOn_eq_splitOnP, fileText, String.toList_ofList,
    ← List.splitOn_eq_splitOnP]
  refine List.splitOn_intercalate _ ?_ (by simpa using nonempty)
  simpa using inLine

/-- Reading gives back what was written. Whatever the capitals of the keywords, the white space, the
comments and the lines without annotations, the annotations of the text are those it was made from.
-/
theorem parse_fileText (items : List Item) (writable : ∀ hint ∈ said items, IsWritable hint)
    : (parse (fileText items)).outcome = .ok (said items) := by
  have each : ∀ item ∈ items, ∀ hint ∈ item.hint?, IsWritable hint :=
    fun item member hint found => writable hint (List.mem_filterMap.mpr ⟨item, member, found⟩)
  -- A file without lines is read as one empty line.
  by_cases empty : items = []
  · rw [empty]
    rfl
  · have shares : List.Forall₂ Contributes (items.map Item.line)
        (items.map fun item => item.hint?.toList) := by
      rw [List.forall₂_map_left_iff, List.forall₂_map_right_iff, List.forall₂_same]
      exact fun item member => Item.contributes (each item member)
    rw [parse, lines_fileText empty fun item member => Item.inLine (each item member),
      readLines_eq_ok shares, said, List.filterMap_eq_flatMap_toList, List.flatMap]
    rfl

/-- Capitals, a range of one byte, a comment right behind an argument, a carriage return, a line
without words and a name that looks like a number do no harm.
-/
theorem parse_fileText_mixed
    : ∃ items,
        fileText items = "; image\nCoDe\t$1000-$1FFF;start\n\r\n  data $0007\nSYM -$code-1 $FFFF ;"
        ∧ (∀ hint ∈ said items, IsWritable hint)
        ∧ (parse (fileText items)).outcome
          = .ok [.code ⟨0x1000, 0x1FFF⟩, .data ⟨7, 7⟩, .symbol "-$code-1" 0xFFFF] := by
  let tight : Blanks := ⟨[], by decide, by decide⟩
  let space : Blanks := ⟨[' '], by decide, by decide⟩
  let tab : Gap := ⟨⟨['\t'], by decide, by decide⟩, by decide⟩
  let items : List Item :=
    [.filler ⟨tight, some " image".toList, by decide⟩,
      .entry ⟨(· % 2 == 0), tight, fun _ => tab, tight, some "start".toList, by decide⟩
        (.code ⟨0x1000, 0x1FFF⟩),
      .filler ⟨⟨['\r'], by decide, by decide⟩, none, by decide⟩,
      .entry ⟨fun _ => false, ⟨[' ', ' '], by decide, by decide⟩, fun _ => ⟨space, by decide⟩,
        tight, none, by decide⟩ (.data ⟨7, 7⟩),
      .entry ⟨fun _ => true, tight, fun _ => ⟨space, by decide⟩, space, some [], by decide⟩
        (.symbol "-$code-1" 0xFFFF)]
  have writable : ∀ hint ∈ said items, IsWritable hint := by decide
  exact ⟨items, by decide +kernel, writable, parse_fileText items writable⟩

end SpeechRom.Annotations
