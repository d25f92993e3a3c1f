import Mathlib.Data.List.Count
import SpeechRom.Proofs.Listing.Repetition

/-! How often labels are printed. A listing counts the first symbol of every address that it lists,
those that it makes on the way among them, and nothing else counts anything. Since no two
instructions share an address, the count of a label is the number of listings.
-/

namespace SpeechRom

-----------------------------------------------------------------------------------------
-- Counts in a ledger
-----------------------------------------------------------------------------------------

namespace Ledger

/-- The first symbol of an address has the count that is given for it, as far as 32 bits can hold
it, and aliases have none.
-/
def Counted (count : BitAddress → Nat) (ledger : Ledger) : Prop :=
  ∀ symbol ∈ ledger.symbols,
    symbol.directCount = if symbol.sequence = 0 then UInt32.ofNat (count symbol.address) else 0

namespace Counted

variable {count : BitAddress → Nat} {ledger : Ledger}

theorem of_empty (count : BitAddress → Nat) : Ledger.empty.Counted count :=
  fun _ member => absurd member List.not_mem_nil

/-- A definition counts nothing, and a new symbol starts at zero. -/
theorem define (counted : ledger.Counted count) (name : String) {address : BitAddress}
    (uncounted : ledger.placed? address 0 = none → count address = 0)
    : (ledger.define name address).1.Counted count := by
  rcases ledger.define_cases name address with same | ⟨free, room, added⟩
  · rw [same]
    exact counted
  · rw [added]
    intro symbol member
    rcases List.mem_append.mp member with old | new
    · exact counted symbol old
    · obtain rfl := List.mem_singleton.mp new
      split
      · rename_i first
        exact congrArg UInt32.ofNat (uncounted (nameless_of_fresh room first)).symm
      · rfl

theorem label (counted : ledger.Counted count) {address : BitAddress} (letter : Char)
    (uncounted : ledger.placed? address 0 = none → count address = 0)
    : (ledger.serve (.label address (some letter) 0)).1.Counted count := by
  cases placed : ledger.placed? address 0 with
  | some symbol =>
      simp only [serve, Ledger.label, placed]
      exact counted
  | none =>
      rw [serve_label_made placed]
      exact counted.define _ uncounted

/-- A reference is no use as a label. -/
theorem addReference (counted : ledger.Counted count) (target source : BitAddress)
    : (ledger.addReference target source).1.Counted count := by
  unfold Ledger.addReference
  split
  · exact counted
  · split
    · exact counted
    · intro symbol member
      obtain ⟨old, inside, rfl⟩ := List.mem_map.mp member
      split
      · exact counted old inside
      · exact counted old inside

/-- Counting a label counts the first symbol of its address once more and no other symbol. -/
theorem markDirect (counted : ledger.Counted count) (address : BitAddress)
    : (ledger.markDirect address).1.Counted
        fun place => count place + if address = place then 1 else 0 := by
  unfold Ledger.markDirect
  split
  · rename_i nameless
    intro symbol member
    have elsewhere (first : symbol.sequence = 0) : address ≠ symbol.address := by
      intro here
      have placed := placed?_eq_some_iff.mpr ⟨member, here.symm, first⟩
      cases nameless.symm.trans placed
    dsimp only
    rw [counted symbol member]
    split
    · rename_i first
      rw [if_neg (elsewhere first), Nat.add_zero]
    · rfl
  · rename_i label placed
    obtain ⟨inside, here, first⟩ := placed?_eq_some_iff.mp placed
    intro symbol member
    obtain ⟨old, oldInside, rfl⟩ := List.mem_map.mp member
    have oldCount := counted old oldInside
    by_cases same : old.name = label.name
    · obtain rfl := List.inj_on_of_nodup_map ledger.distinct oldInside inside same
      rw [if_pos first] at oldCount
      simp only [if_true, Symbol.withUse, first, here, oldCount]
      exact (UInt32.ofNat_add _ 1).symm
    · have elsewhere (primary : old.sequence = 0) : address ≠ old.address := by
        intro there
        have found := placed?_eq_some_iff.mpr ⟨oldInside, there.symm, primary⟩
        obtain rfl := Option.some.inj (placed.symm.trans found)
        exact same rfl
      dsimp only
      rw [if_neg same, oldCount]
      split
      · rename_i primary
        rw [if_neg (elsewhere primary), Nat.add_zero]
      · rfl

end Counted

end Ledger

-----------------------------------------------------------------------------------------
-- Counts in a listing
-----------------------------------------------------------------------------------------

/-- What a ledger keeps of the addresses that were listed: their first symbols have been counted as
often as they were listed, and they are settled.
-/
structure Ledger.Listed (image : Image) (listed : List BitAddress) (ledger : Ledger) : Prop where
  counted : ledger.Counted fun address => listed.count address
  settled : ∀ address ∈ listed, Listing.Settled image ledger address

namespace Ledger.Listed

variable {image : Image} {listed : List BitAddress} {ledger : Ledger}

/-- An address that would receive a label has not been listed before. -/
theorem count_eq_zero (held : ledger.Listed image listed) {address : BitAddress} {letter : Char}
    (target : Listing.letterAt image address = some letter)
    (nameless : ledger.placed? address 0 = none)
    : listed.count address = 0 := by
  refine List.count_eq_zero.mpr fun member => ?_
  rcases held.settled address member with plain | named
  · cases plain.symm.trans target
  · exact named (namesAt_eq_nil_iff.mpr nameless)

/-- Listing one more address counts its label, whether it was there before or has just been made. -/
theorem requests (held : ledger.Listed image listed) {address : BitAddress}
    (settles : Listing.Settled image (ledger.run (Listing.requests image address)) address)
    : (ledger.run (Listing.requests image address)).Listed image (listed ++ [address]) := by
  constructor
  · have labelled : (ledger.serve (.label address (Listing.letterAt image address) 0)).1.Counted
        fun place => listed.count place := by
      cases letter : Listing.letterAt image address with
      | none =>
          rw [← letter, Listing.Settled.serve_label (.inl letter)]
          exact held.counted
      | some made => exact held.counted.label made (held.count_eq_zero letter)
    have counts : (fun place => (listed ++ [address]).count place)
        = fun place => listed.count place + if address = place then 1 else 0 := by
      funext place
      rw [List.count_append, List.count_singleton]
      simp only [beq_iff_eq]
    rw [counts]
    exact labelled.markDirect address
  · intro place member
    rcases List.mem_append.mp member with old | new
    · have settled := held.settled place old
      exact settled.of_names (settled.namesAt_requests address)
    · obtain rfl := List.mem_singleton.mp new
      exact settles

end Ledger.Listed

namespace Disassembly

end Disassembly

end SpeechRom
