import SpeechRom.Proofs.Symbol.Refinement
import SpeechRom.Proofs.Text.Addresses
import SpeechRom.Symbol.Export

/-! Symbol tables from their exports. Sequence numbers are not put back but given anew: an export
lists the symbols of an address in the order of their numbers, so each of them receives its own
again. References and counts are put back with the first symbol of an address, the only one that
has any.
-/

namespace SpeechRom

-----------------------------------------------------------------------------------------
-- Putting symbols back
-----------------------------------------------------------------------------------------

namespace SymbolTable

/-- Puts an exported symbol into a table: its name, then its references, and then its uses as a
label. This fails where the name cannot be defined or an address cannot be read.
-/
def restoreOne (table : SymbolTable) (symbol : ExportedSymbol) : Option SymbolTable :=
  let place := BitAddress.ofParts symbol.byte.toNat symbol.bit.toNat
  match table.define symbol.name place, symbol.crossReferences.mapM BitAddress.ofText? with
  | .ok definition, some sources =>
    some (definition.table.run
      (sources.map (.addReference place ·)
        ++ List.replicate symbol.directReferences.toNat (.markDirect place)))
  | _, _ => none

/-- Puts exported symbols into a table in their order. -/
def restore (table : SymbolTable) (symbols : List ExportedSymbol) : Option SymbolTable :=
  symbols.foldlM restoreOne table

end SymbolTable

namespace Symbol

/-- What requests make of a symbol: its references are distinct, and as an alias it has none and is
not counted.
-/
structure Kept (symbol : Symbol) : Prop where
  distinct : symbol.references.Nodup
  bare : symbol.sequence ≠ 0 → symbol.references = [] ∧ symbol.directCount = 0

namespace Kept

variable {symbol : Symbol}

theorem withReference (kept : symbol.Kept) (first : symbol.sequence = 0) {source : BitAddress}
    (news : source ∉ symbol.references)
    : (symbol.withReference source).Kept := by
  refine ⟨?_, fun later => absurd first later⟩
  exact List.nodup_append.mpr ⟨kept.distinct, List.nodup_singleton _, fun old member new last => by
    rw [List.mem_singleton.mp last]
    rintro rfl
    exact news member⟩

theorem withUse (kept : symbol.Kept) (first : symbol.sequence = 0) : symbol.withUse.Kept :=
  ⟨kept.distinct, fun later => absurd first later⟩

end Kept

/-- The number of a symbol is the number of those before it that share its address. -/
theorem Numbered.length_sharing {before after : List Symbol} {symbol : Symbol}
    (numbered : Numbered (before ++ symbol :: after))
    : (sharing before symbol.address).length = symbol.sequence.toNat := by
  have shared : sharing (before ++ symbol :: after) symbol.address
      = sharing before symbol.address ++ symbol :: sharing after symbol.address := by
    simp [sharing]
  have numbers := numbered symbol.address
  rw [shared] at numbers
  have here := congrArg (·[(sharing before symbol.address).length]?) numbers
  simpa [List.getElem?_range] using here.symm

end Symbol

namespace Ledger

/-- A change of first symbols that keeps them in order keeps all symbols so. -/
theorem kept_change {ledger : Ledger} (kept : ∀ symbol ∈ ledger.symbols, symbol.Kept)
    {label : Symbol} (member : label ∈ ledger.symbols) {update : Symbol → Symbol}
    (keys : ∀ symbol, (update symbol).key = symbol.key) (changed : (update label).Kept)
    : ∀ symbol ∈ (ledger.change label.name update keys).symbols, symbol.Kept := by
  intro symbol inside
  obtain ⟨old, oldInside, rfl⟩ := List.mem_map.mp inside
  by_cases same : old.name = label.name
  · obtain rfl := List.inj_on_of_nodup_map ledger.distinct oldInside member same
    rw [if_pos rfl]
    exact changed
  · rw [if_neg same]
    exact kept old oldInside

theorem kept_define {ledger : Ledger} (kept : ∀ symbol ∈ ledger.symbols, symbol.Kept)
    (name : String) (address : BitAddress)
    : ∀ symbol ∈ (ledger.define name address).1.symbols, symbol.Kept := by
  rcases ledger.define_cases name address with same | ⟨free, room, added⟩
  · rw [same]
    exact kept
  · rw [added]
    intro symbol member
    rcases List.mem_append.mp member with old | new
    · exact kept symbol old
    · obtain rfl := List.mem_singleton.mp new
      exact ⟨List.nodup_nil, fun _ => ⟨rfl, rfl⟩⟩

/-- A request keeps all symbols in order, whatever it is. -/
theorem kept_serve {ledger : Ledger} (kept : ∀ symbol ∈ ledger.symbols, symbol.Kept)
    (request : SymbolRequest)
    : ∀ symbol ∈ (ledger.serve request).1.symbols, symbol.Kept := by
  cases request with
  | define name address => exact kept_define kept name address
  | label address letter sequence =>
      dsimp only [serve]
      unfold label
      split
      · exact kept
      · exact kept
      · split
        · exact kept_define kept _ address
        · exact kept
  | addReference target source =>
      dsimp only [serve]
      unfold addReference
      split
      · exact kept
      · rename_i label placed
        obtain ⟨inside, -, first⟩ := placed?_eq_some_iff.mp placed
        split
        · exact kept
        · rename_i news
          exact kept_change kept inside (Symbol.key_withReference source)
            ((kept label inside).withReference first news)
  | markDirect address =>
      dsimp only [serve]
      unfold markDirect
      split
      · exact kept
      · rename_i label placed
        obtain ⟨inside, -, first⟩ := placed?_eq_some_iff.mp placed
        exact kept_change kept inside Symbol.key_withUse ((kept label inside).withUse first)

/-- Requests in turn keep all symbols in order, by induction on them. -/
theorem kept_run {ledger : Ledger} (kept : ∀ symbol ∈ ledger.symbols, symbol.Kept)
    (requests : List SymbolRequest)
    : ∀ symbol ∈ (ledger.run requests).symbols, symbol.Kept := by
  induction requests generalizing ledger with
  | nil => exact kept
  | cons request rest ih => exact ih (kept_serve kept request)

section LastSymbol

variable {ledger : Ledger} {before : List Symbol} {symbol : Symbol}

/-- A first symbol that was defined last is found at its address. -/
theorem placed?_last (symbols : ledger.symbols = before ++ [symbol])
    (first : symbol.sequence = 0)
    : ledger.placed? symbol.address 0 = some symbol := by
  refine placed?_eq_some_iff.mpr ⟨?_, rfl, first⟩
  rw [symbols]
  exact List.mem_append_right _ (List.mem_singleton.mpr rfl)

/-- A change of the symbol that was defined last leaves all others as they are. -/
theorem change_last (symbols : ledger.symbols = before ++ [symbol]) {update : Symbol → Symbol}
    (keeps : ∀ symbol, (update symbol).key = symbol.key)
    : (ledger.change symbol.name update keeps).symbols = before ++ [update symbol] := by
  have distinct := ledger.distinct
  dsimp only [change]
  rw [symbols] at distinct ⊢
  exact Symbol.changed_middle distinct update

/-- References that are new to a first symbol come after those that it has, by induction on them. -/
theorem run_addReference_last (symbols : ledger.symbols = before ++ [symbol])
    (first : symbol.sequence = 0) {sources : List BitAddress}
    (news : (symbol.references ++ sources).Nodup)
    : (ledger.run (sources.map (.addReference symbol.address ·))).symbols
      = before ++ [{ symbol with references := symbol.references ++ sources }] := by
  induction sources generalizing ledger symbol with
  | nil =>
      rw [List.append_nil]
      exact symbols
  | cons source rest ih =>
      have fresh : source ∉ symbol.references := fun known =>
        (List.nodup_append.mp news).2.2 source known source List.mem_cons_self rfl
      have served : (ledger.serve (.addReference symbol.address source)).1
          = ledger.change symbol.name (·.withReference source)
              (Symbol.key_withReference source) := by
        simp only [serve, addReference, placed?_last symbols first, if_neg fresh]
      have step : (ledger.serve (.addReference symbol.address source)).1.symbols
          = before ++ [symbol.withReference source] := served ▸ change_last symbols _
      rw [List.append_cons] at news
      have later := ih step first news
      rw [Symbol.withReference, ← List.append_cons] at later
      exact later

/-- Uses of a first symbol as a label are added up, by induction on them. -/
theorem run_markDirect_last (symbols : ledger.symbols = before ++ [symbol])
    (first : symbol.sequence = 0) (times : Nat)
    : (ledger.run (List.replicate times (.markDirect symbol.address))).symbols
      = before ++ [{ symbol with directCount := symbol.directCount + UInt32.ofNat times }] := by
  induction times generalizing ledger symbol with
  | zero =>
      have start : symbol.directCount + UInt32.ofNat 0 = symbol.directCount := UInt32.add_zero _
      rw [start]
      exact symbols
  | succ times ih =>
      have served : (ledger.serve (.markDirect symbol.address)).1
          = ledger.change symbol.name (·.withUse) Symbol.key_withUse := by
        simp only [serve, markDirect, placed?_last symbols first]
      have step : (ledger.serve (.markDirect symbol.address)).1.symbols
          = before ++ [symbol.withUse] := served ▸ change_last symbols _
      have later := ih step first
      have count : symbol.directCount + 1 + UInt32.ofNat times
          = symbol.directCount + UInt32.ofNat (times + 1) := by
        rw [UInt32.add_assoc, UInt32.add_comm 1, UInt32.ofNat_add]
        rfl
      rw [Symbol.withUse, count] at later
      exact later

end LastSymbol

end Ledger

namespace SymbolTable

/-- Putting back a symbol adds it, as it was, behind those that are there, provided that its name is
new and its number the next one at its address.
-/
theorem Refines.restoreOne {table : SymbolTable} {ledger : Ledger} {symbol : Symbol}
    (refines : table.Refines ledger) (kept : symbol.Kept)
    (free : ledger.named? symbol.name = none)
    (next : (ledger.aliases symbol.address).length = symbol.sequence.toNat)
    : ∃ restored later,
        table.restoreOne symbol.exported = some restored
        ∧ restored.Refines later
        ∧ later.symbols = ledger.symbols ++ [symbol] := by
  have room : (ledger.aliases symbol.address).length < UInt32.size :=
    next ▸ symbol.sequence.toNat_lt_size
  have number : (ledger.fresh symbol.name symbol.address).sequence = symbol.sequence := by
    rw [Ledger.fresh, next, UInt32.ofNat_toNat]
  have place : BitAddress.ofParts symbol.exported.byte.toNat symbol.exported.bit.toNat
      = symbol.address :=
    symbol.address.ofParts_byte_bit
  have sources : symbol.exported.crossReferences.mapM BitAddress.ofText?
      = some symbol.references := by
    simp only [Symbol.exported, List.mapM_map, Function.comp_def, BitAddress.ofText?_text]
    calc symbol.references.mapM some
        = some (symbol.references.map id) := List.mapM_pure
      _ = some symbol.references := by rw [List.map_id]
  have restored : table.restoreOne symbol.exported
      = some ((table.add (ledger.fresh symbol.name symbol.address)).run
          (symbol.references.map (.addReference symbol.address ·)
            ++ List.replicate symbol.directCount.toNat (.markDirect symbol.address))) := by
    simp only [SymbolTable.restoreOne, place, sources]
    simp only [Symbol.exported, refines.define_free free room]
  refine ⟨_, _, restored, (refines.add free room).run _, ?_⟩
  have symbols : (ledger.append symbol.name symbol.address free room).symbols
      = ledger.symbols ++ [ledger.fresh symbol.name symbol.address] := rfl
  by_cases first : symbol.sequence = 0
  · have referred := Ledger.run_addReference_last symbols (number.trans first)
      ((List.nil_append symbol.references).symm ▸ kept.distinct)
    rw [Ledger.run, List.foldl_append]
    have counted := Ledger.run_markDirect_last referred (number.trans first)
      symbol.directCount.toNat
    refine counted.trans ?_
    simp [Ledger.fresh, next]
  · obtain ⟨references, count⟩ := kept.bare first
    rw [references, count]
    refine symbols.trans ?_
    simp [Ledger.fresh, next, ← references, ← count]

/-- Putting back symbols in turn adds all of them, by induction on those that are left. -/
theorem Refines.restore {table : SymbolTable} {ledger : Ledger} {rest : List Symbol}
    (refines : table.Refines ledger) (kept : ∀ symbol ∈ rest, symbol.Kept)
    (distinct : ((ledger.symbols ++ rest).map (·.name)).Nodup)
    (numbered : Symbol.Numbered (ledger.symbols ++ rest))
    : ∃ restored later,
        table.restore (rest.map (·.exported)) = some restored
        ∧ restored.Refines later
        ∧ later.symbols = ledger.symbols ++ rest := by
  induction rest generalizing table ledger with
  | nil => exact ⟨table, ledger, rfl, refines, (List.append_nil _).symm⟩
  | cons symbol rest ih =>
      obtain ⟨first, others⟩ := List.forall_mem_cons.mp kept
      have free : ledger.named? symbol.name = none := by
        refine Ledger.named?_eq_none_iff.mpr fun old member same => ?_
        rw [List.map_append, List.map_cons] at distinct
        exact (List.nodup_append.mp distinct).2.2 old.name (List.mem_map_of_mem member)
          symbol.name List.mem_cons_self same
      obtain ⟨next, after, restored, refinesNext, symbols⟩ :=
        refines.restoreOne first free numbered.length_sharing
      rw [List.append_cons, ← symbols] at distinct numbered
      obtain ⟨last, final, restoredAll, refinesLast, all⟩ :=
        ih refinesNext others distinct numbered
      refine ⟨last, final, ?_, refinesLast, ?_⟩
      · simp only [SymbolTable.restore, List.map_cons, List.foldlM_cons, restored]
        exact restoredAll
      · rw [all, symbols, ← List.append_cons]

/-- Records in one order are determined by what they are. -/
theorem increasing_unique {order : Avl.Comparison Symbol} [Std.TransCmp order]
    {left right : List Symbol} (leftIncreasing : Avl.Increasing order left)
    (rightIncreasing : Avl.Increasing order right) (same : left.Perm right)
    : left = right := by
  refine List.Perm.eq_of_pairwise ?_ leftIncreasing rightIncreasing same
  intro earlier later _ _ below above
  cases (Std.OrientedCmp.gt_of_lt below).symm.trans above

/-- A table that has answered any requests can be put back from its export: no name is refused and
every address can be read, and the symbols are the same in both orders, with the same export.
-/
theorem restore_exported (commentChar : Char) (requests : List SymbolRequest)
    : let table := ({ commentChar } : SymbolTable).run requests
      ∃ restored,
        SymbolTable.empty.restore table.exported.symbols = some restored
        ∧ restored.exported = table.exported
        ∧ restored.names = table.names
        ∧ restored.exported.count = table.size
        ∧ restored.size = table.size := by
  intro table
  have refines : table.Refines (Ledger.empty.run requests) :=
    (Refines.of_empty commentChar).run requests
  have kept : ∀ symbol ∈ table.entries, symbol.Kept := fun symbol member =>
    Ledger.kept_run (fun _ member => absurd member List.not_mem_nil) requests symbol
      (refines.entries.mem_iff.mp member)
  have distinct : (table.entries.map (·.name)).Nodup :=
    (refines.entries.map _).nodup_iff.mpr (Ledger.distinct _)
  have numbered : Symbol.Numbered table.entries := by
    intro address
    rw [refines.sharing_entries]
    exact Ledger.numbered _ address
  obtain ⟨restored, later, done, refinesLater, symbols⟩ :=
    (Refines.of_empty '#').restore kept distinct numbered
  have same : later.symbols = table.entries := symbols
  have entries : restored.entries = table.entries :=
    increasing_unique refinesLater.placeOrder refines.placeOrder (same ▸ refinesLater.entries)
  have names : restored.names = table.names :=
    increasing_unique refinesLater.nameOrder refines.nameOrder
      ((same ▸ refinesLater.names).trans (refines.entries.trans refines.names.symm))
  have size : table.entries.length = table.size := by
    rw [refines.entries.length_eq, refines.counted]
  refine ⟨restored, done, ?_, names, ?_, ?_⟩
  · simp only [exported, entries]
  · rw [exported, entries, List.length_map, size]
  · rw [refinesLater.counted, same, size]

end SymbolTable

end SpeechRom
