import SpeechRom.Avl.Index
import SpeechRom.Fault
import SpeechRom.Notice

/-!
Symbols: names for bit addresses. Several names may share an address; they are told apart by a
sequence number, and the first one is the primary name.
-/

namespace SpeechRom

/-- Why a symbol operation fails. An address is exhausted when all its sequence numbers are
taken.
-/
inductive SymbolError where
  | redefined (name : String) (existing requested : BitAddress)
  | notFound (name : String)
  | index (error : Avl.IndexError)
  | exhausted (address : BitAddress)
  | unwritable (fault : FileFault)
deriving DecidableEq, Repr

namespace SymbolError

def message : SymbolError → String
  | redefined name existing requested =>
    s!"Symbol redefined with different addresses! {name} at {existing.text} " ++
      s!"vs. {requested.text}"
  | notFound name => "Symbol not found: " ++ name
  | index error => "Symbol index error: " ++ error.message
  | exhausted address => s!"Symbol sequence numbers have run out at {address.text}"
  | unwritable fault => "IO error: " ++ fault.message

def causes (error : SymbolError) : List String :=
  match error with
  | index inner => [error.message, inner.message]
  | unwritable fault => [error.message, fault.message]
  | _ => [error.message]

end SymbolError

/-- A name for an address, with the addresses of the instructions that branch there and the
number of times that the listing has shown the name as a label. Both numbers have 32 bits: after
the last one comes zero again.
-/
structure Symbol where
  name : String
  address : BitAddress
  sequence : UInt32 := 0
  references : List BitAddress := []
  directCount : UInt32 := 0
deriving DecidableEq, Repr

namespace Symbol

/-- Whether another name of the address came first. -/
def isAlias (symbol : Symbol) : Bool := symbol.sequence != 0

/-- The mark of a symbol in tables: an alias, a primary name never used as a label, or neither. -/
def flag (symbol : Symbol) : String :=
  if symbol.isAlias then "a" else if symbol.directCount = 0 then "!" else " "

/-- Name and address, and the sequence number of an alias. -/
def text (symbol : Symbol) : String :=
  if symbol.isAlias then
    s!"{symbol.name} @ {symbol.address.text} (alias {symbol.sequence})"
  else s!"{symbol.name} @ {symbol.address.text}"

/-- What there is to say about a new symbol. -/
def notice (symbol : Symbol) : Notice :=
  if symbol.isAlias then .symbolAliased symbol.name symbol.address symbol.sequence.toNat
  else .symbolDefined symbol.name symbol.address

/-- Goes on to the next sequence number. -/
def bumpSequence (symbol : Symbol) : Symbol :=
  { symbol with sequence := symbol.sequence + 1 }

/-- Notes a reference. Each address is kept once. -/
def addReference (symbol : Symbol) (source : BitAddress) : Symbol :=
  if symbol.references.contains source then symbol
  else { symbol with references := symbol.references ++ [source] }

/-- Counts one more use as a label. -/
def markDirect (symbol : Symbol) : Symbol :=
  { symbol with directCount := symbol.directCount + 1 }

/-- The order of symbols by name. -/
def compareName (symbol : Symbol) (name : String) : Ordering := compare symbol.name name

/-- The order of symbols by address and then by sequence. -/
def compareKey (symbol : Symbol) (address : BitAddress) (sequence : UInt32) : Ordering :=
  (compare symbol.address address).then (compare symbol.sequence sequence)

/-- The order of the tree by name. -/
def nameOrder : Avl.Comparison Symbol := fun new old => new.compareName old.name

/-- The order of the tree by address and sequence. -/
def placeOrder : Avl.Comparison Symbol := fun new old => new.compareKey old.address old.sequence

end Symbol

end SpeechRom
