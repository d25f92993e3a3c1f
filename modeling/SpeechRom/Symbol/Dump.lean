import SpeechRom.Symbol.Table

/-!
Printed symbol tables: symbols in three columns, and the cross references of each symbol in lines
of eight.
-/

namespace SpeechRom

/-- The horizontal rule of printed output. -/
def rule : String := String.ofList (List.replicate 76 '-')

/-- A line that starts with the comment character and a number sign. -/
def tableLine (commentChar : Char) (text : String) : String :=
  String.ofList [commentChar, '#'] ++ text

/-- The heading of a table: a blank line and a title between two rules. -/
def tableHeading (commentChar : Char) (title : String) : String :=
  "\n" ++ tableLine commentChar rule ++ "\n" ++ tableLine commentChar (" " ++ title) ++ "\n" ++
    tableLine commentChar rule ++ "\n"

/-- The rule below a table. -/
def tableEnd (commentChar : Char) : String := tableLine commentChar rule ++ "\n"

/-- The cell of a symbol. A cell in the first column starts its line, and one in the third column
ends it.
-/
def Symbol.cell (commentChar : Char) (column : Nat) (symbol : Symbol) : String :=
  (if column = 0 then tableLine commentChar " " else "  ") ++
    Text.alignRight 14 symbol.name ++ ":" ++ symbol.flag ++ " " ++ symbol.address.digits ++
    if column = 2 then "\n" else ""

/-- The cells of a row in some columns, where symbols fill one column of so many rows after another.
A row that is not full ends its line where the first cell is missing.
-/
def cellRow (commentChar : Char) (symbols : Array Symbol) (rows row : Nat) : List Nat → String
  | [] => ""
  | column :: rest =>
    match symbols[row + column * rows]? with
    | none => "\n"
    | some symbol => symbol.cell commentChar column ++ cellRow commentChar symbols rows row rest

/-- A table of symbols in three columns. One blank line stands for a table without symbols. -/
def columnTable (commentChar : Char) (title : String) (symbols : List Symbol) : String :=
  let cells := symbols.toArray
  let rows := (cells.size + 2) / 3
  tableHeading commentChar ("Symbol Table, sorted by " ++ title) ++
    String.join ((List.range rows).map fun row => cellRow commentChar cells rows row [0, 1, 2]) ++
    (if cells.size = 0 then "\n" else "") ++ tableEnd commentChar

/-- A list in pieces of a given size; only the last piece may be shorter. -/
def chunks {α : Type} (size : Nat) (items : List α) : List (List α) :=
  if items = [] ∨ size = 0 then []
  else items.take size :: chunks size (items.drop size)
termination_by items.length
decreasing_by
  rename_i present
  have nonempty : 0 < items.length := List.length_pos_iff.mpr fun nil => present (.inl nil)
  have positive : size ≠ 0 := fun zero => present (.inr zero)
  simp only [List.length_drop]
  omega

/-- Addresses one after another, each after a blank. -/
def addressRun (addresses : List BitAddress) : String :=
  String.join (addresses.map fun address => " " ++ address.digits)

/-- How a line of cross references begins. The first line names the symbol; each further one ends
the line before it and is indented.
-/
def Symbol.referenceMargin (commentChar : Char) (symbol : Symbol) (line : Nat) : String :=
  if line = 0 then
    tableLine commentChar (" " ++ Text.alignRight 14 symbol.name ++ ":" ++ symbol.flag)
  else "\n" ++ tableLine commentChar (Text.alignRight 17 "")

/-- The cross references of one symbol, eight to a line. -/
def Symbol.referenceText (commentChar : Char) (symbol : Symbol) : String :=
  String.join ((chunks 8 symbol.references).mapIdx fun line addresses =>
      symbol.referenceMargin commentChar line ++ addressRun addresses) ++
    if symbol.references.isEmpty then "" else "\n"

namespace SymbolTable

/-- The symbols in the order of their names. -/
def dumpByName (table : SymbolTable) : String :=
  columnTable table.commentChar "Symbol" table.names

/-- The symbols in the order of their addresses. -/
def dumpByAddress (table : SymbolTable) : String :=
  columnTable table.commentChar "Address" table.entries

/-- The cross references of all symbols that have any. -/
def dumpReferences (table : SymbolTable) : String :=
  tableHeading table.commentChar "Cross Reference Table" ++
    String.join (table.entries.map (·.referenceText table.commentChar)) ++
    tableEnd table.commentChar

end SymbolTable

end SpeechRom
