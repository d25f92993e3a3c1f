import Mathlib.Data.Bool.AllAny
import SpeechRom.Proofs.Listing.Pieces
import SpeechRom.Proofs.Symbol.Restoring

/-! Printed symbol tables lose and repeat nothing. The cells of a table are read back to symbols, by
columns in their order, and the lines of cross references to addresses. Unless a name contains a
line feed, every row is one line of the text.
-/

namespace SpeechRom

-----------------------------------------------------------------------------------------
-- Addresses in a line
-----------------------------------------------------------------------------------------

/-- Reads addresses that stand one after another, separated by white space. -/
def addressesOfRun? (run : String) : Option (List BitAddress) :=
  (Text.words run.toList).mapM fun word => BitAddress.ofText? ("$" ++ String.ofList word)

theorem toList_addressRun (addresses : List BitAddress)
    : (addressRun addresses).toList = addresses.flatMap fun address => ' ' :: address.digits.toList
    := by
  rw [addressRun, String.toList_join, List.flatMap_map]
  simp only [String.toList_append]
  rfl

/-- Each address is a word. Witness: induction on the addresses; a word ends at the blank of the
next address or at the end of the text.
-/
theorem words_addressRun (addresses : List BitAddress)
    : Text.words (addressRun addresses).toList = addresses.map (·.digits.toList) := by
  have blank : Text.isBlank ' ' := by decide
  rw [toList_addressRun]
  induction addresses with
  | nil => rfl
  | cons address rest ih =>
      have nonempty : address.digits.toList ≠ [] := by simp [BitAddress.toList_digits]
      have word := Text.words_eq_singleton nonempty address.digits_plain
      rw [List.flatMap_cons, List.cons_append, Text.words_cons_blank blank, List.map_cons, ← ih]
      cases rest with
      | nil => rw [List.flatMap_nil, List.append_nil, word, Text.words_nil]
      | cons next others =>
          rw [List.flatMap_cons, List.cons_append, Text.words_append_cons blank, word,
            Text.words_cons_blank blank, List.singleton_append]

/-- Addresses in a line are read back. -/
theorem addressesOfRun?_addressRun (addresses : List BitAddress)
    : addressesOfRun? (addressRun addresses) = some addresses := by
  rw [addressesOfRun?, words_addressRun, List.mapM_map]
  induction addresses with
  | nil => rfl
  | cons address rest ih =>
      rw [List.mapM_cons, ih, Function.comp, address.ofText?_digits]
      rfl

-----------------------------------------------------------------------------------------
-- Cells
-----------------------------------------------------------------------------------------

/-- What a cell says of a symbol. -/
structure TableEntry where
  name : String
  mark : Char
  address : BitAddress
deriving DecidableEq

/-- Reads a cell from its end: the digits of an address, a blank, the mark, a colon, and a name
behind any number of blanks.
-/
def entryOfCell? (cell : String) : Option TableEntry :=
  let chars := cell.toList.reverse
  let digits := String.ofList (chars.takeWhile (· != ' ')).reverse
  match BitAddress.ofText? ("$" ++ digits), chars.dropWhile (· != ' ') with
  | some address, ' ' :: mark :: ':' :: name =>
    some ⟨String.ofList (name.reverse.dropWhile (· == ' ')), mark, address⟩
  | _, _ => none

namespace Symbol

/-- The mark of a symbol: `a` for an alias, `!` for a first name that was never counted as a label,
and a blank for one that was.
-/
def mark (symbol : Symbol) : Char :=
  if symbol.sequence ≠ 0 then 'a' else if symbol.directCount = 0 then '!' else ' '

/-- What a table says of a symbol. Blanks at the beginning of a name are lost among those that fill
the column.
-/
def entry (symbol : Symbol) : TableEntry where
  name := String.ofList (symbol.name.toList.dropWhile (· == ' '))
  mark := symbol.mark
  address := symbol.address

/-- A cell without what separates it from others. -/
def cellText (symbol : Symbol) : String :=
  Text.alignRight 14 symbol.name ++ ":" ++ symbol.flag ++ " " ++ symbol.address.digits

theorem cell_eq (commentChar : Char) (column : Nat) (symbol : Symbol)
    : symbol.cell commentChar column
      = (if column = 0 then tableLine commentChar " " else "  ") ++ symbol.cellText
        ++ (if column = 2 then "\n" else "") := by
  simp only [cell, cellText, String.append_assoc]

theorem toList_flag (symbol : Symbol) : symbol.flag.toList = [symbol.mark] := by
  unfold flag mark isAlias
  by_cases first : symbol.sequence = 0
  · by_cases unused : symbol.directCount = 0
    · simp [first, unused]
    · simp [first, unused]
  · simp [first]

theorem toList_cellText (symbol : Symbol)
    : symbol.cellText.toList
      = List.replicate (14 - symbol.name.toList.length) ' ' ++ symbol.name.toList
        ++ ':' :: symbol.mark :: ' ' :: symbol.address.digits.toList := by
  simp [cellText, Text.alignRight, Text.padLeft, toList_flag]

/-- Cells are read back. Witness: from its end, the address of a cell goes up to the first blank. -/
theorem entryOfCell?_cellText (symbol : Symbol)
    : entryOfCell? symbol.cellText = some symbol.entry := by
  have digits : ∀ c ∈ symbol.address.digits.toList.reverse, (c != ' ') = true := by
    intro c member
    have plain := symbol.address.digits_plain c (List.mem_reverse.mp member)
    refine bne_iff_ne.mpr fun same => ?_
    rw [same] at plain
    exact absurd plain (by decide)
  have blanks : ∀ c ∈ List.replicate (14 - symbol.name.toList.length) ' ', (c == ' ') = true :=
    fun c member => beq_iff_eq.mpr (List.eq_of_mem_replicate member)
  have chars : symbol.cellText.toList.reverse
      = symbol.address.digits.toList.reverse ++ ' ' :: symbol.mark :: ':' ::
          (List.replicate (14 - symbol.name.toList.length) ' ' ++ symbol.name.toList).reverse := by
    rw [toList_cellText]
    simp
  have address : (symbol.cellText.toList.reverse.takeWhile (· != ' ')).reverse
      = symbol.address.digits.toList := by
    rw [chars, List.takeWhile_append_of_pos digits, List.takeWhile_cons_of_neg (by simp),
      List.append_nil, List.reverse_reverse]
  have rest : symbol.cellText.toList.reverse.dropWhile (· != ' ')
      = ' ' :: symbol.mark :: ':' ::
          (List.replicate (14 - symbol.name.toList.length) ' ' ++ symbol.name.toList).reverse := by
    rw [chars, List.dropWhile_append_of_pos digits, List.dropWhile_cons_of_neg (by simp)]
  simp only [entryOfCell?, address, rest, BitAddress.ofText?_digits, List.reverse_reverse,
    List.dropWhile_append_of_pos blanks]
  rfl

end Symbol

-----------------------------------------------------------------------------------------
-- Lines
-----------------------------------------------------------------------------------------

/-- A table takes no line feeds over, neither as its comment character nor in a name. -/
structure Printable (commentChar : Char) (symbols : List Symbol) : Prop where
  mark : commentChar ≠ '\n'
  names : ∀ symbol ∈ symbols, '\n' ∉ symbol.name.toList

/-- A text about symbols is written in lines. Each of them ends in one line feed, and there are no
others but those that the text takes over.
-/
structure Written (commentChar : Char) (symbols : List Symbol) (lines : List String)
    (text : String) : Prop where
  ended : text = String.join (lines.map (· ++ "\n"))
  inLine : Printable commentChar symbols → ∀ line ∈ lines, '\n' ∉ line.toList

/-- The lines of a text are found again. -/
theorem Written.lineStrings {commentChar : Char} {symbols : List Symbol} {lines : List String}
    {text : String} (written : Written commentChar symbols lines text)
    (printable : Printable commentChar symbols)
    : Text.lineStrings text = lines ++ [""] := by
  have joined : text = Text.unlines lines := by
    refine String.toList_injective ?_
    rw [written.ended, Text.toList_unlines, String.toList_join, List.flatMap_map]
    simp only [String.toList_append]
    rfl
  rw [joined]
  exact Text.lineStrings_unlines (written.inLine printable)

/-- The lines of a table: a blank line, a title between two rules, what the table holds, and a rule
at the end. Rules have 76 dashes.
-/
def framed (commentChar : Char) (title : String) (inner : List String) : List String :=
  let ruled := String.ofList (commentChar :: '#' :: List.replicate 76 '-')
  ["", ruled, String.ofList [commentChar, '#', ' '] ++ title, ruled] ++ inner ++ [ruled]

theorem tableLine_rule (commentChar : Char)
    : tableLine commentChar rule
      = String.ofList (commentChar :: '#' :: List.replicate 76 '-') := by
  unfold tableLine rule
  rw [← String.ofList_append, List.cons_append, List.cons_append, List.nil_append]

theorem inLine_mark {commentChar : Char} (printable : commentChar ≠ '\n') {chars : List Char}
    (inLine : '\n' ∉ chars)
    : '\n' ∉ (String.ofList (commentChar :: '#' :: chars)).toList := by
  rw [String.toList_ofList, List.mem_cons, List.mem_cons, not_or, not_or]
  exact ⟨printable.symm, by decide, inLine⟩

namespace Written

variable {commentChar : Char} {symbols : List Symbol}

/-- What stands between heading and end is framed by their lines. -/
theorem framed {title text : String} {inner : List String} (titled : '\n' ∉ title.toList)
    (written : Written commentChar symbols inner text)
    : Written commentChar symbols (framed commentChar title inner)
        (tableHeading commentChar title ++ text ++ tableEnd commentChar) := by
  have titleLine : tableLine commentChar (" " ++ title)
      = String.ofList [commentChar, '#', ' '] ++ title :=
    String.toList_injective (by simp [tableLine])
  constructor
  · rw [tableHeading, tableEnd, tableLine_rule, titleLine, written.ended, SpeechRom.framed]
    simp [String.append_assoc]
  · intro printable line member
    have ruled := inLine_mark printable.mark (by decide : '\n' ∉ List.replicate 76 '-')
    simp only [SpeechRom.framed, List.mem_append, List.mem_cons, List.not_mem_nil, or_false]
      at member
    rcases member with ((rfl | rfl | rfl | rfl) | inside) | rfl
    · exact List.not_mem_nil
    · exact ruled
    · rw [String.toList_append, List.mem_append, not_or]
      exact ⟨inLine_mark printable.mark (by decide), titled⟩
    · exact ruled
    · exact written.inLine printable line inside
    · exact ruled

/-- Texts in lines, one after another, are in lines. -/
theorem flatMap {α : Type} {items : List α} {lines : α → List String} {text : α → String}
    (each : ∀ item ∈ items, Written commentChar symbols (lines item) (text item))
    : Written commentChar symbols (items.flatMap lines) (String.join (items.map text)) := by
  induction items with
  | nil => exact ⟨rfl, fun _ _ member => absurd member List.not_mem_nil⟩
  | cons item rest ih =>
      obtain ⟨here, later⟩ := List.forall_mem_cons.mp each
      constructor
      · rw [List.map_cons, String.join_cons, List.flatMap_cons, List.map_append,
          String.join_append, here.ended, (ih later).ended]
      · intro printable line member
        rcases List.mem_append.mp member with inside | inside
        · exact here.inLine printable line inside
        · exact (ih later).inLine printable line inside

end Written

theorem inLine_digits (address : BitAddress) : '\n' ∉ address.digits.toList := by
  intro member
  cases (address.digits_plain _ member).symm.trans (by decide : Text.isBlank '\n' = true)

theorem inLine_addressRun (addresses : List BitAddress)
    : '\n' ∉ (addressRun addresses).toList := by
  rw [toList_addressRun, List.mem_flatMap]
  rintro ⟨address, -, inside⟩
  rcases List.mem_cons.mp inside with blank | digit
  · cases blank
  · exact inLine_digits address digit

theorem inLine_intercalate {separator : String} {texts : List String}
    (apart : '\n' ∉ separator.toList) (each : ∀ text ∈ texts, '\n' ∉ text.toList)
    : '\n' ∉ (separator.intercalate texts).toList := by
  induction texts with
  | nil => exact List.not_mem_nil
  | cons text rest ih =>
      obtain ⟨here, later⟩ := List.forall_mem_cons.mp each
      cases rest with
      | nil =>
          rw [String.intercalate_singleton]
          exact here
      | cons next others =>
          rw [String.intercalate_cons_cons, String.toList_append, String.toList_append]
          simp only [List.mem_append, not_or]
          exact ⟨⟨here, apart⟩, ih later⟩

namespace Symbol

theorem mark_ne (symbol : Symbol) : '\n' ≠ symbol.mark := by
  unfold mark
  split
  · decide
  · split <;> decide

theorem inLine_cellText {symbol : Symbol} (inLine : '\n' ∉ symbol.name.toList)
    : '\n' ∉ symbol.cellText.toList := by
  simp [toList_cellText, inLine, symbol.mark_ne, inLine_digits]

end Symbol

-----------------------------------------------------------------------------------------
-- Symbols in columns
-----------------------------------------------------------------------------------------

/-- A text prints symbols in columns. Between heading and rule stand as few rows as can hold them,
none with more than three cells, each in a line of its own; read by columns the cells are the
symbols in their order. A blank line stands for a table without symbols.
-/
def PrintsColumns (commentChar : Char) (title : String) (symbols : List Symbol) (text : String)
    : Prop :=
  ∃ rows : List (List String),
    rows.length = (symbols.length + 2) / 3
    ∧ (∀ row ∈ rows, 1 ≤ row.length ∧ row.length ≤ 3)
    ∧ (readColumns rows).map entryOfCell? = symbols.map (fun symbol => some symbol.entry)
    ∧ Written commentChar symbols
        (framed commentChar ("Symbol Table, sorted by " ++ title)
          (if symbols = [] then [""]
            else rows.map fun row =>
              String.ofList [commentChar, '#', ' '] ++ String.intercalate "  " row))
        text

/-- A row that has a first cell is one line, whether its last cell ends it or the table does.
Witness: where the second cell is missing, so is the third.
-/
theorem cellRow_eq (commentChar : Char) {symbols : List Symbol} {rows row : Nat}
    (inside : row < symbols.length)
    : cellRow commentChar symbols.toArray rows row [0, 1, 2]
      = String.ofList [commentChar, '#', ' ']
        ++ String.intercalate "  " (columnRow (symbols.map (·.cellText)) rows row) ++ "\n" := by
  have mark : tableLine commentChar " " = String.ofList [commentChar, '#', ' '] :=
    String.toList_injective (by simp [tableLine])
  have first : symbols[row]? = some symbols[row] := List.getElem?_eq_getElem inside
  simp only [cellRow, columnRow, List.getElem?_toArray, List.getElem?_map, Nat.zero_mul,
    Nat.one_mul, Nat.add_zero, first, Symbol.cell_eq, mark]
  cases second : symbols[row + rows]? with
  | none =>
      have third : symbols[row + 2 * rows]? = none := by
        have ended := List.getElem?_eq_none_iff.mp second
        exact List.getElem?_eq_none (by omega)
      simp [first, second, third]
  | some next =>
      cases third : symbols[row + 2 * rows]? with
      | none => simp [first, second, third, String.append_assoc]
      | some last => simp [first, second, third, String.append_assoc]

/-- The lines of a table with its symbols in columns. -/
def columnLines (commentChar : Char) (symbols : List Symbol) : List String :=
  if symbols = [] then [""]
  else (columnRows (symbols.map (·.cellText))).map fun row =>
    String.ofList [commentChar, '#', ' '] ++ String.intercalate "  " row

theorem written_columnTable (commentChar : Char) {title : String} (symbols : List Symbol)
    (titled : '\n' ∉ title.toList)
    : Written commentChar symbols
        (framed commentChar ("Symbol Table, sorted by " ++ title)
          (columnLines commentChar symbols))
        (columnTable commentChar title symbols) := by
  have parts : columnTable commentChar title symbols
      = tableHeading commentChar ("Symbol Table, sorted by " ++ title)
        ++ (String.join ((List.range ((symbols.length + 2) / 3)).map fun row =>
            cellRow commentChar symbols.toArray ((symbols.length + 2) / 3) row [0, 1, 2])
          ++ if symbols.length = 0 then "\n" else "")
        ++ tableEnd commentChar := by
    simp only [columnTable, String.append_assoc, List.size_toArray]
  rw [parts]
  refine Written.framed (by simp [titled]) ?_
  unfold columnLines
  by_cases empty : symbols = []
  · rw [if_pos empty, empty]
    exact ⟨rfl, by simp⟩
  · rw [if_neg empty, if_neg (mt List.length_eq_zero_iff.mp empty), String.append_empty]
    constructor
    · rw [columnRows, List.map_map, List.map_map, List.length_map]
      refine congrArg String.join (List.map_congr_left fun row listed => ?_)
      have inside := List.mem_range.mp listed
      rw [Function.comp, Function.comp, cellRow_eq commentChar (by omega)]
    · intro printable line member
      obtain ⟨row, listed, rfl⟩ := List.mem_map.mp member
      rw [String.toList_append, List.mem_append, not_or]
      refine ⟨inLine_mark printable.mark (by decide), inLine_intercalate (by decide) ?_⟩
      intro cell shown
      obtain ⟨symbol, within, rfl⟩ := List.mem_map.mp (mem_of_mem_columnRows listed shown)
      exact Symbol.inLine_cellText (printable.names symbol within)

theorem columnTable_printsColumns (commentChar : Char) {title : String} (symbols : List Symbol)
    (titled : '\n' ∉ title.toList)
    : PrintsColumns commentChar title symbols (columnTable commentChar title symbols) := by
  have cells := readColumns_columnRows (symbols.map (·.cellText))
  refine ⟨columnRows (symbols.map (·.cellText)), ?_, fun row member =>
    length_mem_columnRows member, ?_, ?_⟩
  · rw [length_columnRows, List.length_map]
  · simp only [cells, List.map_map, Function.comp_def, Symbol.entryOfCell?_cellText]
  · exact written_columnTable commentChar symbols titled

-----------------------------------------------------------------------------------------
-- Cross references in lines
-----------------------------------------------------------------------------------------

namespace Symbol

/-- What stands before the references in a line: name and mark in the first line, blanks after. -/
def margin (symbol : Symbol) (place : Nat) : String :=
  if place = 0 then
    String.ofList (' ' :: List.replicate (14 - symbol.name.toList.length) ' ') ++ symbol.name
      ++ String.ofList [':', symbol.mark]
  else String.ofList (List.replicate 17 ' ')

/-- Lines print the references of a symbol: as few as can hold them with eight to a line, which read
back in sequence are the references. A symbol without references has no lines.
-/
def PrintsReferences (commentChar : Char) (symbol : Symbol) (lines : List String) : Prop :=
  ∃ (runs : List String) (parts : List (List BitAddress)),
    runs.map addressesOfRun? = parts.map some
    ∧ parts.length = (symbol.references.length + 7) / 8
    ∧ (∀ part ∈ parts, 1 ≤ part.length ∧ part.length ≤ 8)
    ∧ parts.flatten = symbol.references
    ∧ lines
      = runs.mapIdx fun place run =>
          String.ofList [commentChar, '#'] ++ symbol.margin place ++ run

/-- The lines with the references of a symbol. -/
def referenceLines (commentChar : Char) (symbol : Symbol) : List String :=
  (chunks 8 symbol.references).mapIdx fun place part =>
    String.ofList [commentChar, '#'] ++ symbol.margin place ++ addressRun part

theorem referenceLines_printsReferences (commentChar : Char) (symbol : Symbol)
    : symbol.PrintsReferences commentChar (symbol.referenceLines commentChar) := by
  have eight : 0 < 8 := by decide
  refine ⟨(chunks 8 symbol.references).map addressRun, chunks 8 symbol.references, ?_,
    length_chunks eight _, fun part member => length_mem_chunks member, flatten_chunks eight _, ?_⟩
  · rw [List.map_map]
    exact List.map_congr_left fun part _ => addressesOfRun?_addressRun part
  · refine List.ext_getElem ?_ fun place _ _ => ?_
    · rw [referenceLines, List.length_mapIdx, List.length_mapIdx, List.length_map]
    · simp only [referenceLines, List.getElem_mapIdx, List.getElem_map]

/-- The beginning of a line with references, after the line feed that ends the line before it. -/
theorem referenceMargin_eq (commentChar : Char) (symbol : Symbol) (line : Nat)
    : symbol.referenceMargin commentChar line
      = (if line = 0 then "" else "\n") ++ (String.ofList [commentChar, '#'] ++ symbol.margin line)
    := by
  unfold referenceMargin margin
  split
  · refine String.toList_injective ?_
    simp [tableLine, Text.alignRight, Text.padLeft, toList_flag]
  · refine String.toList_injective ?_
    simp [tableLine, Text.alignRight, Text.padLeft]

end Symbol

/-- Line feeds before all lines but the first and one at the end are line feeds behind all lines. -/
theorem join_feeds_before (lines : List String)
    : String.join (lines.map ("\n" ++ ·)) ++ "\n" = "\n" ++ String.join (lines.map (· ++ "\n"))
    := by
  induction lines with
  | nil => rfl
  | cons line rest ih =>
      rw [List.map_cons, List.map_cons, String.join_cons, String.join_cons, String.append_assoc, ih]
      simp only [String.append_assoc]

namespace Symbol

theorem inLine_margin {symbol : Symbol} (inLine : '\n' ∉ symbol.name.toList) (place : Nat)
    : '\n' ∉ (symbol.margin place).toList := by
  unfold margin
  split
  · simp [inLine, symbol.mark_ne]
  · simp

/-- The lines of a symbol end in line feeds. Witness: each line but the first is written after the
line feed of the one before it, and the last line feed is written where there are any references.
-/
theorem referenceText_eq (commentChar : Char) (symbol : Symbol)
    : symbol.referenceText commentChar
      = String.join ((symbol.referenceLines commentChar).map (· ++ "\n")) := by
  have pieces := chunks_eq_nil_iff (show 0 < 8 by decide) symbol.references
  unfold referenceText referenceLines
  cases split : chunks 8 symbol.references with
  | nil =>
      rw [pieces.mp split]
      rfl
  | cons first rest =>
      have present : symbol.references.isEmpty = false :=
        List.isEmpty_eq_false_iff.mpr fun absent =>
          List.cons_ne_nil first rest (split.symm.trans (pieces.mpr absent))
      have later : (rest.mapIdx fun place part =>
            symbol.referenceMargin commentChar (place + 1) ++ addressRun part)
          = (rest.mapIdx fun place part =>
              String.ofList [commentChar, '#'] ++ symbol.margin (place + 1)
                ++ addressRun part).map ("\n" ++ ·) := by
        refine List.ext_getElem ?_ fun place _ _ => ?_
        · rw [List.length_map, List.length_mapIdx, List.length_mapIdx]
        · simp only [List.getElem_mapIdx, List.getElem_map, referenceMargin_eq,
            if_neg (Nat.succ_ne_zero place), String.append_assoc]
      rw [present, if_neg Bool.false_ne_true, List.mapIdx_cons, List.mapIdx_cons, List.map_cons,
        String.join_cons, String.join_cons, later, String.append_assoc, join_feeds_before,
        referenceMargin_eq, if_pos rfl]
      simp only [String.append_assoc, String.empty_append]

theorem written_referenceText (commentChar : Char) {symbols : List Symbol} {symbol : Symbol}
    (listed : symbol ∈ symbols)
    : Written commentChar symbols (symbol.referenceLines commentChar)
        (symbol.referenceText commentChar) where
  ended := symbol.referenceText_eq commentChar
  inLine := by
    intro printable line member
    obtain ⟨place, inside, rfl⟩ := List.mem_mapIdx.mp member
    rw [String.toList_append, String.toList_append, List.mem_append, List.mem_append, not_or,
      not_or]
    exact ⟨⟨inLine_mark printable.mark List.not_mem_nil,
      inLine_margin (printable.names symbol listed) place⟩, inLine_addressRun _⟩

end Symbol

-----------------------------------------------------------------------------------------
-- Tables
-----------------------------------------------------------------------------------------

namespace SymbolTable

theorem written_dumpReferences (table : SymbolTable)
    : Written table.commentChar table.entries
        (framed table.commentChar "Cross Reference Table"
          (table.entries.flatMap (·.referenceLines table.commentChar)))
        table.dumpReferences :=
  Written.framed (by decide)
    (.flatMap fun _ listed => Symbol.written_referenceText table.commentChar listed)

/-- Whatever has been asked of a table, its three printed forms lose and repeat nothing. Columns by
name and by address show each symbol once, in that order; the lines of cross references follow the
order of addresses. Every row of a table is a line, which ends in one line feed.
-/
theorem dumps_read_back (commentChar : Char) (requests : List SymbolRequest)
    : let table := ({ commentChar } : SymbolTable).run requests
      table.names.length = table.size
      ∧ table.entries.Perm table.names
      ∧ (table.names.map (·.name)).Nodup
      ∧ PrintsColumns table.commentChar "Symbol" table.names table.dumpByName
      ∧ PrintsColumns table.commentChar "Address" table.entries table.dumpByAddress
      ∧ ∃ blocks,
          List.Forall₂ (Symbol.PrintsReferences table.commentChar) table.entries blocks
          ∧ Written table.commentChar table.entries
              (framed table.commentChar "Cross Reference Table" blocks.flatten)
              table.dumpReferences := by
  intro table
  have refines : table.Refines (Ledger.empty.run requests) :=
    (Refines.of_empty commentChar).run requests
  refine ⟨refines.names.length_eq.trans refines.counted.symm,
    refines.entries.trans refines.names.symm,
    (refines.names.map _).nodup_iff.mpr (Ledger.distinct _),
    columnTable_printsColumns _ _ (by decide), columnTable_printsColumns _ _ (by decide),
    table.entries.map (·.referenceLines table.commentChar), ?_, ?_⟩
  · rw [List.forall₂_map_right_iff, List.forall₂_same]
    exact fun symbol _ => symbol.referenceLines_printsReferences table.commentChar
  · rw [← List.flatMap_def]
    exact table.written_dumpReferences

/-- Five symbols fill one row and leave the third cell of the other empty. One of them has nine
references, and the ninth opens a second line.
-/
theorem dumps_read_back_ninth
    : let loop : List SymbolRequest :=
        [.define "LOOP" ⟨0x8000⟩, .define "BACK" ⟨0x8000⟩, .define "END" ⟨0x8084⟩,
          .define "IDLE" ⟨0x8088⟩, .define "EXIT" ⟨0x8084⟩]
        ++ (List.range 9).map fun count => .addReference ⟨0x8000⟩ ⟨UInt32.ofNat (0x8100 + count)⟩
      let table := SymbolTable.run { commentChar := ';' } loop
      PrintsColumns ';' "Symbol" table.names table.dumpByName
      ∧ Text.lineStrings table.dumpByName
        = ["",
          ";#----------------------------------------------------------------------------",
          ";# Symbol Table, sorted by Symbol",
          ";#----------------------------------------------------------------------------",
          ";#           BACK:a 1000.0            EXIT:a 1010.4            LOOP:! 1000.0",
          ";#            END:! 1010.4            IDLE:! 1011.0",
          ";#----------------------------------------------------------------------------",
          ""]
      ∧ Text.lineStrings table.dumpReferences
        = ["",
          ";#----------------------------------------------------------------------------",
          ";# Cross Reference Table",
          ";#----------------------------------------------------------------------------",
          ";#           LOOP:! 1020.0 1020.1 1020.2 1020.3 1020.4 1020.5 1020.6 1020.7",
          ";#                  1021.0",
          ";#----------------------------------------------------------------------------",
          ""] := by
  intro loop table
  obtain ⟨-, same, -, columns, -⟩ := dumps_read_back ';' loop
  have mark : table.commentChar = ';' := by decide +kernel
  have byName : Printable table.commentChar table.names :=
    ⟨by decide +kernel, List.all_iff_forall_prop.mp (by decide +kernel)⟩
  have byAddress : Printable table.commentChar table.entries :=
    ⟨byName.mark, fun symbol listed => byName.names symbol (same.mem_iff.mp listed)⟩
  have names := (written_columnTable _ _ (by decide : '\n' ∉ "Symbol".toList)).lineStrings byName
  have references := table.written_dumpReferences.lineStrings byAddress
  exact ⟨mark ▸ columns, names.trans (by decide +kernel), references.trans (by decide +kernel)⟩

end SymbolTable

end SpeechRom
