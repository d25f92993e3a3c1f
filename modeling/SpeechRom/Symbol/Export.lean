import SpeechRom.Json.Printer
import SpeechRom.Symbol.Table

/-!
Symbol tables as data for other programs: one record for each symbol, written as JSON.
-/

namespace SpeechRom

/-- A symbol with its addresses spelled out. -/
structure ExportedSymbol where
  name : String
  address : String
  byte : UInt32
  bit : UInt32
  sequence : UInt32
  directReferences : UInt32
  crossReferences : List String
deriving DecidableEq, Repr

/-- All symbols of a table and their number. -/
structure SymbolExport where
  count : Nat
  symbols : List ExportedSymbol
deriving DecidableEq, Repr

/-- A symbol with its addresses spelled out. -/
def Symbol.exported (symbol : Symbol) : ExportedSymbol where
  name := symbol.name
  address := symbol.address.text
  byte := symbol.address.byte
  bit := symbol.address.bit
  sequence := symbol.sequence
  directReferences := symbol.directCount
  crossReferences := symbol.references.map (·.text)

/-- The symbols of a table by address and sequence. -/
def SymbolTable.exported (table : SymbolTable) : SymbolExport where
  count := (table.entries.map (·.exported)).length
  symbols := table.entries.map (·.exported)

/-- The JSON object of a symbol. -/
def ExportedSymbol.json (symbol : ExportedSymbol) : Json.Value :=
  .object [
    ("name", .string symbol.name),
    ("address", .string symbol.address),
    ("byte", .number symbol.byte.toNat),
    ("bit", .number symbol.bit.toNat),
    ("sequence", .number symbol.sequence.toNat),
    ("direct_references", .number symbol.directReferences.toNat),
    ("cross_references", .array (symbol.crossReferences.map .string))]

/-- The JSON object of a table. -/
def SymbolExport.json (symbols : SymbolExport) : Json.Value :=
  .object [
    ("count", .number symbols.count),
    ("symbols", .array (symbols.symbols.map (·.json)))]

/-- The JSON text of a table. -/
def SymbolTable.exportText (table : SymbolTable) : String := table.exported.json.text

end SpeechRom
