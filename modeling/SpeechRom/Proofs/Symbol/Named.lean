import SpeechRom.Proofs.Avl.Records
import SpeechRom.Proofs.Symbol.Refinement
import SpeechRom.Proofs.Text.Digits

/-! The names of a symbol table and where they stand. A table gains a name only by its definition,
and a label that is asked for is refused only where its name already stands elsewhere.
-/

namespace SpeechRom.SymbolTable

/-- The table has a symbol of this name at this address. -/
def Named (table : SymbolTable) (name : String) (address : BitAddress) : Prop :=
  ∃ symbol ∈ table.names, symbol.name = name ∧ symbol.address = address

/-- Numbering a symbol keeps its name and address, by induction on the attempts. -/
theorem place_keeps {tree : Avl.Tree Symbol} {symbol : Symbol} {attempts : Nat}
    {placement : Placement} (placed : place tree symbol attempts = some placement)
    : placement.symbol.name = symbol.name ∧ placement.symbol.address = symbol.address := by
  induction attempts generalizing symbol with
  | zero => cases placed
  | succ attempts ih =>
      rw [place] at placed
      split at placed
      · obtain rfl := Option.some.inj placed
        exact ⟨rfl, rfl⟩
      · obtain ⟨name, address⟩ := ih placed
        exact ⟨name, address⟩

/-- A definition that succeeds adds at most its own name at its own address. -/
theorem define_ok {table : SymbolTable} {name : String} {address : BitAddress}
    {definition : Definition} (defined : table.define name address = .ok definition)
    {known : String} {place : BitAddress} (named : definition.table.Named known place)
    : table.Named known place ∨ (known = name ∧ place = address) := by
  unfold define at defined
  split at defined
  · split at defined
    · obtain rfl := Except.ok.inj defined
      exact .inl named
    · cases defined
  · dsimp only at defined
    split at defined
    · cases defined
    · split at defined
      · cases defined
      · rename_i placed
        obtain rfl := Except.ok.inj defined
        obtain ⟨symbol, member, rfl, rfl⟩ := named
        rcases Avl.Tree.mem_insert member with rfl | member
        · exact .inr (place_keeps placed)
        · exact .inl ⟨symbol, member, rfl, rfl⟩

/-- A look-up of a label adds at most the made label of the address. -/
theorem label_ok {table : SymbolTable} {address : BitAddress} {letter : Option Char}
    {sequence : UInt32} {labelling : Labelling}
    (labelled : table.label address letter sequence = .ok labelling)
    {known : String} {place : BitAddress} (named : labelling.table.Named known place)
    : table.Named known place
      ∨ ∃ made, letter = some made ∧ known = madeLabel made address ∧ place = address := by
  unfold label at labelled
  split at labelled
  · obtain rfl := Except.ok.inj labelled
    exact .inl named
  · obtain rfl := Except.ok.inj labelled
    exact .inl named
  · rename_i made _
    split at labelled
    · split at labelled
      · cases labelled
      · rename_i definition defined
        obtain rfl := Except.ok.inj labelled
        rcases define_ok defined named with old | ⟨rfl, rfl⟩
        · exact .inl old
        · exact .inr ⟨made, rfl, rfl, rfl⟩
    · obtain rfl := Except.ok.inj labelled
      exact .inl named

/-- A look-up of a label fails only because the made label stands at another address. Witness: a
label is made where there is no symbol, so all sequence numbers are left for it.
-/
theorem Refines.label_error {table : SymbolTable} {ledger : Ledger}
    (refines : table.Refines ledger) {address : BitAddress} {letter : Option Char}
    {sequence : UInt32} {error : SymbolError}
    (refused : table.label address letter sequence = .error error)
    : ∃ made existing,
        letter = some made ∧ table.Named (madeLabel made address) existing
        ∧ existing ≠ address ∧ error = .redefined (madeLabel made address) existing address := by
  unfold label at refused
  split at refused
  · cases refused
  · cases refused
  · rename_i made nameless
    split at refused
    · rename_i first
      subst first
      rw [refines.nameAt?_eq, Option.map_eq_none_iff] at nameless
      cases known : ledger.named? (madeLabel made address) with
      | none =>
          rw [refines.define_free known (Ledger.room_of_nameless nameless)] at refused
          cases refused
      | some symbol =>
          obtain ⟨member, name⟩ := Ledger.named?_eq_some_iff.mp known
          rw [refines.define_known known] at refused
          by_cases here : symbol.address = address
          · rw [if_pos here] at refused
            cases refused
          · rw [if_neg here] at refused
            exact ⟨made, symbol.address, rfl, ⟨symbol, refines.names.mem_iff.mpr member, name, rfl⟩,
              here, (Except.error.inj refused).symm⟩
    · cases refused

/-- A change that keeps names and addresses adds no name. -/
theorem update_named (table : SymbolTable) (symbol : Symbol) (change : Symbol → Symbol)
    (keeps : ∀ old, (change old).name = old.name ∧ (change old).address = old.address)
    {known : String} {place : BitAddress} (named : (table.update symbol change).Named known place)
    : table.Named known place := by
  obtain ⟨entry, member, name, address⟩ := named
  rcases Avl.Tree.mem_modify member with member | ⟨old, stood, changed⟩
  · exact ⟨entry, member, name, address⟩
  · rw [changed] at name address
    exact ⟨old, stood, (keeps old).1 ▸ name, (keeps old).2 ▸ address⟩

/-- Noting a reference adds no name. -/
theorem addReference_named {table : SymbolTable} {target source : BitAddress} {known : String}
    {place : BitAddress} (named : (table.addReference target source).1.Named known place)
    : table.Named known place := by
  unfold addReference at named
  split at named
  · exact named
  · split at named
    · exact named
    · refine update_named table _ _ (fun old => ?_) named
      unfold Symbol.addReference
      split <;> exact ⟨rfl, rfl⟩

theorem markDirect_named {table : SymbolTable} {address : BitAddress} {known : String}
    {place : BitAddress} (named : (table.markDirect address).1.Named known place)
    : table.Named known place := by
  unfold markDirect at named
  split at named
  · exact named
  · exact update_named table _ (·.markDirect) (fun _ => ⟨rfl, rfl⟩) named

/-- Made labels that are written alike have the same letter and stand for the same byte. -/
theorem madeLabel_injective {letter other : Char} {address place : BitAddress}
    (same : madeLabel letter address = madeLabel other place)
    : letter = other ∧ address.byte = place.byte := by
  have chars := congrArg String.toList same
  simp only [madeLabel, String.toList_append, String.toList_ofList] at chars
  obtain ⟨letters, digits⟩ := List.append_inj chars rfl
  have written := Text.hexPadded_injective (String.toList_injective digits)
  exact ⟨(List.cons.inj letters).1, UInt32.toNat_inj.mp written⟩

end SpeechRom.SymbolTable
