import SpeechRom.Text.Blank

/-! Words and lines of a text. A blank ends a word wherever it stands, so words can be found on
either side of it apart from each other, and what is only blank has none.
-/

namespace SpeechRom.Text

-----------------------------------------------------------------------------------------
-- Pieces
-----------------------------------------------------------------------------------------

theorem splitOn_eq_splitOnP (separates : Char → Bool) (chars : List Char)
    : splitOn separates chars = chars.splitOnP separates := by
  induction chars with
  | nil => rfl
  | cons c rest ih =>
      have nonempty : splitOn separates rest ≠ [] := ih ▸ List.splitOnP_ne_nil separates rest
      rw [List.splitOnP_cons_eq_if_modifyHead, ← ih]
      unfold splitOn at nonempty ⊢
      rw [List.foldr_cons]
      generalize List.foldr _ [[]] rest = pieces at nonempty ⊢
      cases pieces with
      | nil => exact absurd rfl nonempty
      | cons piece more => rfl

/-- Text on both sides of its only separator is cut into these two pieces. -/
theorem splitOn_pair {separates : Char → Bool} {left right : List Char} {c : Char}
    (separator : separates c) (leftPlain : ∀ c ∈ left, separates c = false)
    (rightPlain : ∀ c ∈ right, separates c = false)
    : splitOn separates (left ++ c :: right) = [left, right] := by
  rw [splitOn_eq_splitOnP, List.splitOnP_append_cons _ _ separator,
    List.splitOnP_eq_singleton leftPlain, List.splitOnP_eq_singleton rightPlain]
  rfl

-----------------------------------------------------------------------------------------
-- Words
-----------------------------------------------------------------------------------------

/-- The words of a text are those before a blank and those after it. -/
theorem words_append_cons {c : Char} (blank : isBlank c) (left right : List Char)
    : words (left ++ c :: right) = words left ++ words right := by
  simp only [words, splitOn_eq_splitOnP, List.splitOnP_append_cons _ _ blank, List.filter_append]

theorem words_nil : words [] = [] := rfl

theorem words_cons_blank {c : Char} (blank : isBlank c) (rest : List Char)
    : words (c :: rest) = words rest := by
  have skipped := words_append_cons blank [] rest
  rwa [words_nil, List.nil_append, List.nil_append] at skipped

/-- Blanks at the beginning do not count. -/
theorem words_blanks_append {blanks : List Char} (blank : ∀ c ∈ blanks, isBlank c)
    (rest : List Char)
    : words (blanks ++ rest) = words rest := by
  induction blanks with
  | nil => rfl
  | cons c more ih =>
      obtain ⟨first, later⟩ := List.forall_mem_cons.mp blank
      rw [List.cons_append, words_cons_blank first, ih later]

/-- Characters that are not blank make one word. -/
theorem words_eq_singleton {word : List Char} (nonempty : word ≠ [])
    (plain : ∀ c ∈ word, isBlank c = false)
    : words word = [word] := by
  rw [words, splitOn_eq_splitOnP, List.splitOnP_eq_singleton plain, List.filter_cons_of_pos]
  · rfl
  · simpa using nonempty

/-- A word in front of blanks comes before the words behind them. -/
theorem words_word_blanks_append {word blanks : List Char} (nonempty : word ≠ [])
    (plain : ∀ c ∈ word, isBlank c = false) (separated : blanks ≠ [])
    (blank : ∀ c ∈ blanks, isBlank c) (rest : List Char)
    : words (word ++ (blanks ++ rest)) = word :: words rest := by
  obtain ⟨c, more, rfl⟩ := List.exists_cons_of_ne_nil separated
  obtain ⟨first, later⟩ := List.forall_mem_cons.mp blank
  rw [List.cons_append, words_append_cons first, words_eq_singleton nonempty plain,
    words_blanks_append later]
  rfl

-----------------------------------------------------------------------------------------
-- Lines
-----------------------------------------------------------------------------------------

/-- A line without the carriage return at its end, if there is one. -/
def withoutReturn (line : List Char) : List Char :=
  if line.getLast? = some '\r' then line.dropLast else line

/-- The lines of a text file. A line ends at a line feed, and a carriage return before the line feed
belongs to the end. What stands behind the last line feed is a line if it is not empty.
-/
def fileLines (text : String) : List (List Char) :=
  let pieces := text.toList.splitOn '\n'
  pieces.dropLast.map withoutReturn ++ (pieces.getLast?.toList.filter (· ≠ []))

/-- A carriage return at the end of a line is a blank. -/
theorem withoutReturn_cases (line : List Char)
    : withoutReturn line = line ∨ line = withoutReturn line ++ ['\r'] := by
  unfold withoutReturn
  split
  · rename_i returns
    obtain ⟨rest, rfl⟩ := List.getLast?_eq_some_iff.mp returns
    exact .inr (by rw [List.dropLast_concat])
  · exact .inl rfl

/-- But for carriage returns and an empty piece at the end, the pieces between line feeds are the
lines of a text file.
-/
theorem lines_cases (text : String)
    : ∃ ended last,
        lines text = ended ++ [last]
        ∧ (last = [] ∧ fileLines text = ended.map withoutReturn
          ∨ fileLines text = ended.map withoutReturn ++ [last]) := by
  have pieces : lines text = text.toList.splitOn '\n' := by
    rw [lines, splitOn_eq_splitOnP, List.splitOn_eq_splitOnP]
  cases found : (text.toList.splitOn '\n').getLast? with
  | none => exact absurd (List.getLast?_eq_none_iff.mp found) (List.splitOn_ne_nil _ _)
  | some last =>
      obtain ⟨ended, split⟩ := List.getLast?_eq_some_iff.mp found
      refine ⟨ended, last, pieces.trans split, ?_⟩
      by_cases empty : last = []
      · simp [fileLines, split, empty]
      · simp [fileLines, split, empty]

theorem toList_unlines (lines : List String)
    : (unlines lines).toList = lines.flatMap fun line => line.toList ++ ['\n'] := by
  have joined (before : String)
      : (lines.foldl (fun text line => text ++ line ++ "\n") before).toList
        = before.toList ++ lines.flatMap fun line => line.toList ++ ['\n'] := by
    induction lines generalizing before with
    | nil => exact (List.append_nil _).symm
    | cons line rest ih => simp [ih]
  exact joined ""

/-- Lines that are written one after another are found again, with nothing behind the last of them.
Witness: induction on the lines, each of which ends at its own line feed.
-/
theorem lineStrings_unlines {lines : List String} (inLine : ∀ line ∈ lines, '\n' ∉ line.toList)
    : lineStrings (unlines lines) = lines ++ [""] := by
  rw [lineStrings, Text.lines, toList_unlines, splitOn_eq_splitOnP]
  induction lines with
  | nil => rfl
  | cons line rest ih =>
      obtain ⟨here, later⟩ := List.forall_mem_cons.mp inLine
      have plain : ∀ c ∈ line.toList, (c == '\n') = false := by
        intro c member
        have apart : c ≠ '\n' := fun same => here (same ▸ member)
        simpa using apart
      rw [List.flatMap_cons, List.append_assoc, List.singleton_append,
        List.splitOnP_append_cons _ _ (by rfl), List.splitOnP_eq_singleton plain, List.map_append,
        ih later, List.map_singleton, String.ofList_toList]
      rfl

end SpeechRom.Text
