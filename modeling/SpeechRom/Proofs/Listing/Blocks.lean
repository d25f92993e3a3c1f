import SpeechRom.Proofs.Listing.Captions

/-! Blocks of the listing. Above an instruction stand the names that its address has in the end, and
the symbols change in two ways only: a nameless branch target receives a label, and where there are
names, the first of them is counted.
-/

namespace SpeechRom

-----------------------------------------------------------------------------------------
-- Changes to symbols
-----------------------------------------------------------------------------------------

namespace Symbol

/-- The symbols with the first one of an address counted once more. -/
def countedAt (address : BitAddress) (symbols : List Symbol) : List Symbol :=
  symbols.map fun symbol =>
    if symbol.address = address ∧ symbol.sequence = 0 then
      { symbol with directCount := symbol.directCount + 1 }
    else symbol

theorem countedAt_absent {address : BitAddress} {symbols : List Symbol}
    (absent : ∀ symbol ∈ symbols, symbol.address ≠ address)
    : countedAt address symbols = symbols :=
  (List.map_congr_left fun symbol member => if_neg fun here => absent symbol member here.1).trans
    (List.map_id' symbols)

/-- A list of symbols has one more symbol than another, somewhere between the others. -/
def Inserted (symbol : Symbol) (old new : List Symbol) : Prop :=
  ∃ front rear, old = front ++ rear ∧ new = front ++ symbol :: rear

/-- Counting at an address where there is only the new symbol counts the new symbol. -/
theorem Inserted.countedAt {symbol : Symbol} {old new : List Symbol}
    (inserted : Inserted symbol old new) (first : symbol.sequence = 0)
    (absent : ∀ other ∈ old, other.address ≠ symbol.address)
    : Inserted { symbol with directCount := symbol.directCount + 1 } old
        (countedAt symbol.address new) := by
  obtain ⟨front, rear, rfl, rfl⟩ := inserted
  refine ⟨front, rear, rfl, ?_⟩
  have before := countedAt_absent fun other member => absent other (List.mem_append_left _ member)
  have after := countedAt_absent fun other member => absent other (List.mem_append_right _ member)
  simp only [Symbol.countedAt] at before after ⊢
  rw [List.map_append, List.map_cons, before, after, if_pos ⟨rfl, first⟩]

end Symbol

namespace SymbolTable.Refines

variable {table : SymbolTable} {ledger : Ledger}

end SymbolTable.Refines

-----------------------------------------------------------------------------------------
-- Walks over sequence numbers
-----------------------------------------------------------------------------------------

/-- The names that a walk over the sequence numbers of an address meets from a number on. It ends at
the first number without a name, and nothing else bounds it; after the last number it goes on with
zero.
-/
inductive SymbolTable.WalksNames (table : SymbolTable) (address : BitAddress)
    : UInt32 → List String → Prop
  | stop {sequence : UInt32} (missing : table.nameAt? address sequence = none)
    : WalksNames table address sequence []
  | next {sequence : UInt32} {name : String} {rest : List String}
    (found : table.nameAt? address sequence = some name)
    (later : WalksNames table address (sequence + 1) rest)
    : WalksNames table address sequence (name :: rest)

namespace SymbolTable

/-- What is met does not depend on the walk, by induction on one of two walks. -/
theorem WalksNames.unique {table : SymbolTable} {address : BitAddress} {sequence : UInt32}
    {left right : List String} (walk : table.WalksNames address sequence left)
    (other : table.WalksNames address sequence right)
    : left = right := by
  induction walk generalizing right with
  | stop missing =>
      cases other with
      | stop => rfl
      | next found => cases missing.symm.trans found
  | next found _ ih =>
      cases other with
      | stop missing => cases missing.symm.trans found
      | next again later =>
          obtain rfl := Option.some.inj (found.symm.trans again)
          rw [ih later]

/-- A walk has come to a number without a name. -/
theorem WalksNames.missing {table : SymbolTable} {address : BitAddress} {sequence : UInt32}
    {names : List String} (walk : table.WalksNames address sequence names)
    : ∃ last, table.nameAt? address last = none := by
  induction walk with
  | stop missing => exact ⟨_, missing⟩
  | next _ _ ih => exact ih

namespace Refines

variable {table : SymbolTable} {ledger : Ledger}

end Refines

end SymbolTable

-----------------------------------------------------------------------------------------
-- Blocks
-----------------------------------------------------------------------------------------

namespace Listing

end Listing

end SpeechRom
