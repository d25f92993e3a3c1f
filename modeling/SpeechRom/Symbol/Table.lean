import SpeechRom.Avl.Tree
import SpeechRom.Symbol.Basic
import SpeechRom.Text.Split

/-!
Symbol tables: the same symbols in one tree by name and in another by address and sequence.
-/

namespace SpeechRom

/-- Symbols indexed by name and by place, with the comment character of printed tables. -/
structure SymbolTable where
  byName : Avl.Tree Symbol := .leaf
  byPlace : Avl.Tree Symbol := .leaf
  size : Nat := 0
  commentChar : Char := '#'

namespace SymbolTable

/-- A table without symbols. -/
def empty : SymbolTable := {}

/-- The symbols in the order of their names. -/
def names (table : SymbolTable) : List Symbol := table.byName.toList

/-- The symbols in the order of address and sequence. -/
def entries (table : SymbolTable) : List Symbol := table.byPlace.toList

/-- The symbols at an address in the order of their definition. -/
def aliases (table : SymbolTable) (address : BitAddress) : List Symbol :=
  (table.entries.dropWhile fun symbol => symbol.address < address).takeWhile fun symbol =>
    symbol.address = address

/-- The symbols whose names contain a text, in the order of their names. -/
def grep (table : SymbolTable) (part : String) : List Symbol :=
  table.names.filter fun symbol => Text.contains symbol.name part

/-- The symbol of a name. -/
def findName? (table : SymbolTable) (name : String) : Option Symbol :=
  table.byName.find? (·.compareName name)

/-- The symbol at an address with a sequence number. -/
def findPlace? (table : SymbolTable) (address : BitAddress) (sequence : UInt32) : Option Symbol :=
  table.byPlace.find? (·.compareKey address sequence)

/-- The name at an address with a sequence number. -/
def nameAt? (table : SymbolTable) (address : BitAddress) (sequence : UInt32) : Option String :=
  (table.findPlace? address sequence).map (·.name)

/-- The address of a name. -/
def addressOf (table : SymbolTable) (name : String) : Except SymbolError BitAddress :=
  match table.findName? name with
  | some symbol => .ok symbol.address
  | none => .error (.notFound name)

/-- A tree by place with one more symbol, under the sequence number that it was given there. -/
structure Placement where
  symbol : Symbol
  tree : Avl.Tree Symbol

/-- Puts a symbol into the tree by place. While its sequence number is taken it goes on to the next
one, and gives up after so many attempts.
-/
def place (tree : Avl.Tree Symbol) (symbol : Symbol) : Nat → Option Placement
  | 0 => none
  | attempts + 1 =>
    match tree.insert Symbol.placeOrder symbol with
    | ⟨tree, some _⟩ => some ⟨symbol, tree⟩
    | ⟨_, none⟩ => place tree symbol.bumpSequence attempts

/-- A table after a definition, and the symbol that was added, if one was. -/
structure Definition where
  table : SymbolTable
  added : Option Symbol

/-- Defines a name at an address. Defining it there again changes nothing; defining it at
another address fails. A new symbol is tried with every sequence number once: if all of them are
taken, trying them again would never end.
-/
def define (table : SymbolTable) (name : String) (address : BitAddress) :
    Except SymbolError Definition :=
  match table.findName? name with
  | some existing =>
    if existing.address = address then .ok ⟨table, none⟩
    else .error (.redefined name existing.address address)
  | none =>
    let new : Symbol := { name, address }
    match table.byName.insert Symbol.nameOrder new with
    | ⟨_, none⟩ => .error (.index .duplicateKey)
    | ⟨_, some _⟩ =>
      match place table.byPlace new UInt32.size with
      | none => .error (.exhausted address)
      | some ⟨symbol, byPlace⟩ =>
        -- Both trees hold the same symbol, so the one by name has its sequence number as well.
        let byName := (table.byName.insert Symbol.nameOrder symbol).tree
        .ok ⟨{ table with byName, byPlace, size := table.size + 1 }, some symbol⟩

/-- A table after a look-up, the name that was found or made, and the symbol that was added. -/
structure Labelling where
  table : SymbolTable
  name : Option String
  added : Option Symbol

/-- The label that is made for an address: a letter and the byte address. -/
def madeLabel (letter : Char) (address : BitAddress) : String :=
  String.ofList [letter, '_'] ++ Text.hexPadded 4 address.byte.toNat

/-- The name at an address with a sequence number. If there is none, the sequence number is zero
and a letter is given, a label is made and defined.
-/
def label (table : SymbolTable) (address : BitAddress) (letter : Option Char) (sequence : UInt32) :
    Except SymbolError Labelling :=
  match table.nameAt? address sequence, letter with
  | some name, _ => .ok ⟨table, some name, none⟩
  | none, none => .ok ⟨table, none, none⟩
  | none, some letter =>
    if sequence = 0 then
      match table.define (madeLabel letter address) address with
      | .error error => .error error
      | .ok definition =>
        .ok ⟨definition.table, some (madeLabel letter address), definition.added⟩
    else .ok ⟨table, none, none⟩

/-- Changes a symbol, found in both trees, without touching its name or place. -/
def update (table : SymbolTable) (symbol : Symbol) (change : Symbol → Symbol) : SymbolTable :=
  { table with
    byName := table.byName.modify (·.compareName symbol.name) change
    byPlace := table.byPlace.modify (·.compareKey symbol.address symbol.sequence) change }

/-- Notes that the instruction at `source` refers to `target`. Says whether that is news: false
when the target has no name or the reference is known.
-/
def addReference (table : SymbolTable) (target source : BitAddress) : SymbolTable × Bool :=
  match table.findPlace? target 0 with
  | none => (table, false)
  | some symbol =>
    if symbol.references.contains source then (table, false)
    else (table.update symbol (·.addReference source), true)

/-- Counts a use of the primary name of an address as a label. Says whether there is one. -/
def markDirect (table : SymbolTable) (address : BitAddress) : SymbolTable × Bool :=
  match table.findPlace? address 0 with
  | none => (table, false)
  | some symbol => (table.update symbol (·.markDirect), true)

end SymbolTable

end SpeechRom
