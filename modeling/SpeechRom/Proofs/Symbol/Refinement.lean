import SpeechRom.Proofs.Address
import SpeechRom.Proofs.Avl.Search
import SpeechRom.Proofs.Symbol.Ledger
import SpeechRom.Proofs.Text.Utf8

/-! A symbol table is a ledger in two orders. Both trees hold the symbols of the ledger, one by name
and one by place, and every request is answered as the ledger answers it.
-/

namespace SpeechRom

-----------------------------------------------------------------------------------------
-- Orders
-----------------------------------------------------------------------------------------

namespace BitAddress

theorem compare_eq_lt {left right : BitAddress} : compare left right = .lt ↔ left < right :=
  Std.compare_eq_lt (α := UInt32)

theorem compare_eq_eq {left right : BitAddress} : compare left right = .eq ↔ left = right := by
  obtain ⟨left⟩ := left
  obtain ⟨right⟩ := right
  change compare left right = .eq ↔ _
  rw [Std.compare_eq_iff_eq, mk.injEq]

instance : Std.TransOrd BitAddress := inferInstanceAs (Std.TransCmp (compareOn BitAddress.index))

end BitAddress

namespace Symbol

instance : Std.TransCmp nameOrder := inferInstanceAs (Std.TransCmp (compareOn Symbol.name))

instance : Std.TransCmp placeOrder :=
  inferInstanceAs
    (Std.TransCmp (compareLex (compareOn Symbol.address) (compareOn Symbol.sequence)))

theorem nameOrder_eq_eq {left right : Symbol}
    : nameOrder left right = .eq ↔ left.name = right.name :=
  Std.LawfulEqOrd.compare_eq_iff_eq

theorem placeOrder_eq_lt {left right : Symbol}
    : placeOrder left right = .lt
      ↔ left.address < right.address
        ∨ left.address = right.address ∧ left.sequence < right.sequence := by
  rw [placeOrder, compareKey, Ordering.then_eq_lt, BitAddress.compare_eq_lt,
    BitAddress.compare_eq_eq, Std.compare_eq_lt]

theorem placeOrder_eq_eq {left right : Symbol}
    : placeOrder left right = .eq
      ↔ left.address = right.address ∧ left.sequence = right.sequence := by
  rw [placeOrder, compareKey, Ordering.then_eq_eq, BitAddress.compare_eq_eq,
    Std.compare_eq_iff_eq]

/-- Both orders depend on the keys only. -/
theorem increasing_of_keys {order : Avl.Comparison Symbol}
    (byKey : order = nameOrder ∨ order = placeOrder) {left right : List Symbol}
    (same : left.map key = right.map key) (increasing : Avl.Increasing order left)
    : Avl.Increasing order right := by
  rcases byKey with rfl | rfl
  · have sorted : (left.map key).Pairwise (compare ·.1 ·.1 = .lt) :=
      List.pairwise_map.mpr increasing
    exact List.pairwise_map.mp (same ▸ sorted)
  · have sorted : (left.map key).Pairwise fun earlier later =>
        (compare earlier.2.1 later.2.1).then (compare earlier.2.2 later.2.2) = .lt :=
      List.pairwise_map.mpr increasing
    exact List.pairwise_map.mp (same ▸ sorted)

end Symbol

-----------------------------------------------------------------------------------------
-- Symbols at an address
-----------------------------------------------------------------------------------------

namespace Symbol

/-- Addresses never fall along the list. -/
def AddressesRise (symbols : List Symbol) : Prop :=
  symbols.Pairwise fun earlier later => ¬ later.address < earlier.address

theorem AddressesRise.of_increasing {symbols : List Symbol}
    (increasing : Avl.Increasing placeOrder symbols)
    : AddressesRise symbols := by
  refine List.Pairwise.imp ?_ increasing
  intro earlier later less falls
  rw [BitAddress.lt_iff] at falls
  rcases placeOrder_eq_lt.mp less with below | ⟨same, -⟩
  · rw [BitAddress.lt_iff] at below
    omega
  · rw [same] at falls
    omega

/-- Where addresses rise from an address on, its symbols come first. -/
theorem takeWhile_eq_sharing {symbols : List Symbol} {address : BitAddress}
    (rise : AddressesRise symbols) (above : ∀ symbol ∈ symbols, ¬ symbol.address < address)
    : symbols.takeWhile (·.address = address) = sharing symbols address := by
  induction symbols with
  | nil => rfl
  | cons first rest ih =>
      obtain ⟨firstRises, restRises⟩ := List.pairwise_cons.mp rise
      by_cases here : first.address = address
      · have later := ih restRises fun symbol member => above symbol (List.mem_cons_of_mem _ member)
        simp only [sharing] at later
        simp [sharing, here, later]
      · -- The first symbol lies beyond the address, and so do all others.
        have absent : ∀ symbol ∈ rest, symbol.address ≠ address := by
          intro symbol member same
          have beyond := above first List.mem_cons_self
          have rises := firstRises symbol member
          rw [same] at rises
          rw [BitAddress.lt_iff] at beyond rises
          exact here (BitAddress.ext_toNat (by omega))
        simpa [sharing, here] using absent

/-- Skipping the symbols before an address and taking those at it gives all that share it. -/
theorem dropWhile_takeWhile_eq_sharing {symbols : List Symbol} {address : BitAddress}
    (rise : AddressesRise symbols)
    : (symbols.dropWhile (·.address < address)).takeWhile (·.address = address)
      = sharing symbols address := by
  induction symbols with
  | nil => rfl
  | cons first rest ih =>
      obtain ⟨firstRises, restRises⟩ := List.pairwise_cons.mp rise
      by_cases before : first.address < address
      · have elsewhere : first.address ≠ address := by
          intro same
          rw [same, BitAddress.lt_iff] at before
          omega
        have later := ih restRises
        simp only [sharing] at later
        simp [sharing, before, elsewhere, later]
      · rw [List.dropWhile_cons_of_neg (by simpa using before)]
        refine takeWhile_eq_sharing rise fun symbol member below => ?_
        rcases List.mem_cons.mp member with rfl | member
        · exact before below
        · have rises := firstRises symbol member
          rw [BitAddress.lt_iff] at before below rises
          omega

end Symbol

-----------------------------------------------------------------------------------------
-- Refinement
-----------------------------------------------------------------------------------------

namespace SymbolTable

/-- The table with a symbol put into both trees. -/
def add (table : SymbolTable) (symbol : Symbol) : SymbolTable :=
  { table with
    byName := (table.byName.insert Symbol.nameOrder symbol).tree
    byPlace := (table.byPlace.insert Symbol.placeOrder symbol).tree
    size := table.size + 1 }

/-- A table stands for a ledger: both trees hold its symbols, each in its order, and the size is
their number.
-/
structure Refines (table : SymbolTable) (ledger : Ledger) : Prop where
  names : table.names.Perm ledger.symbols
  entries : table.entries.Perm ledger.symbols
  nameOrder : Avl.Increasing Symbol.nameOrder table.names
  placeOrder : Avl.Increasing Symbol.placeOrder table.entries
  counted : table.size = ledger.symbols.length

namespace Refines

variable {table : SymbolTable} {ledger : Ledger}

theorem of_empty (commentChar : Char) : Refines { commentChar } Ledger.empty :=
  ⟨.refl _, .refl _, .nil, .nil, rfl⟩

/-- A search by name finds the symbol of the ledger. -/
theorem findName?_eq (refines : table.Refines ledger) (name : String)
    : table.findName? name = ledger.named? name := by
  refine Option.ext fun symbol => ?_
  -- Any symbol of that name serves as the probe.
  have found := Avl.Tree.find?_eq_some_iff refines.nameOrder { name, address := ⟨0⟩ } symbol
  rw [Symbol.nameOrder_eq_eq] at found
  rw [Ledger.named?_eq_some_iff, ← refines.names.mem_iff]
  exact found

theorem findPlace?_eq (refines : table.Refines ledger) (address : BitAddress) (sequence : UInt32)
    : table.findPlace? address sequence = ledger.placed? address sequence := by
  refine Option.ext fun symbol => ?_
  have found := Avl.Tree.find?_eq_some_iff refines.placeOrder
    { name := "", address, sequence } symbol
  rw [Symbol.placeOrder_eq_eq] at found
  rw [Ledger.placed?_eq_some_iff, ← refines.entries.mem_iff]
  exact found

theorem nameAt?_eq (refines : table.Refines ledger) (address : BitAddress) (sequence : UInt32)
    : table.nameAt? address sequence = (ledger.placed? address sequence).map (·.name) := by
  rw [nameAt?, refines.findPlace?_eq]

/-- The symbols at an address stand in the tree by place as they were defined. Witness: both lists
have the same symbols with rising sequence numbers.
-/
theorem sharing_entries (refines : table.Refines ledger) (address : BitAddress)
    : Symbol.sharing table.entries address = ledger.aliases address := by
  have ledgerRises : (ledger.aliases address).Pairwise (·.sequence.toNat < ·.sequence.toNat) := by
    have numbers : ((ledger.aliases address).map (·.sequence.toNat)).Pairwise (· < ·) := by
      rw [Ledger.aliases, ledger.numbered address]
      exact List.pairwise_lt_range
    exact List.pairwise_map.mp numbers
  have tableRises : (Symbol.sharing table.entries address).Pairwise
      (·.sequence.toNat < ·.sequence.toNat) := by
    have sorted : (Symbol.sharing table.entries address).Pairwise
        (Symbol.placeOrder · · = .lt) := refines.placeOrder.filter _
    refine List.Pairwise.imp_of_mem ?_ sorted
    intro earlier later earlierMember laterMember less
    have earlierHere : earlier.address = address := by
      simpa using (List.mem_filter.mp earlierMember).2
    have laterHere : later.address = address := by
      simpa using (List.mem_filter.mp laterMember).2
    rcases Symbol.placeOrder_eq_lt.mp less with below | ⟨-, below⟩
    · rw [earlierHere, laterHere, BitAddress.lt_iff] at below
      omega
    · exact UInt32.lt_iff_toNat_lt.mp below
  refine List.Perm.eq_of_pairwise ?_ tableRises ledgerRises (refines.entries.filter _)
  intro left right _ _ below above
  omega

theorem aliases_eq (refines : table.Refines ledger) (address : BitAddress)
    : table.aliases address = ledger.aliases address := by
  rw [← refines.sharing_entries]
  exact Symbol.dropWhile_takeWhile_eq_sharing (.of_increasing refines.placeOrder)

/-- The tree by place refuses a symbol exactly at the numbers that are taken at its address. -/
theorem insert_refused_iff (refines : table.Refines ledger) (symbol : Symbol)
    : (table.byPlace.insert Symbol.placeOrder symbol).grew = none
      ↔ symbol.sequence.toNat < (ledger.aliases symbol.address).length := by
  have taken : symbol.sequence.toNat < (ledger.aliases symbol.address).length
      ↔ ∃ stored, ledger.placed? symbol.address symbol.sequence = some stored := by
    rw [← Option.ne_none_iff_exists', Ne, Ledger.placed?_eq_none_iff, Nat.not_le]
  rw [Avl.Tree.insert_refused_iff refines.placeOrder, taken]
  refine exists_congr fun stored => ?_
  rw [Ledger.placed?_eq_some_iff, ← refines.entries.mem_iff, Symbol.placeOrder_eq_eq]
  exact and_congr_right fun _ => and_congr eq_comm eq_comm

/-- Trying one number after another ends at the first free one, which is the number of symbols at
the address; where all are taken it finds none. Witness: induction on the attempts that are left, of
which there is one for each number not tried yet.
-/
theorem place_eq (refines : table.Refines ledger) (name : String) {address : BitAddress}
    {count attempts : Nat} (reach : count + attempts = UInt32.size)
    (below : count ≤ (ledger.aliases address).length)
    : place table.byPlace { name, address, sequence := UInt32.ofNat count } attempts
      = if (ledger.aliases address).length < UInt32.size then
          some ⟨ledger.fresh name address,
            (table.byPlace.insert Symbol.placeOrder (ledger.fresh name address)).tree⟩
        else none := by
  induction attempts generalizing count with
  | zero =>
      rw [if_neg (by omega)]
      rfl
  | succ attempts ih =>
      have number : (UInt32.ofNat count).toNat = count := UInt32.toNat_ofNat_of_lt (by omega)
      have refused := refines.insert_refused_iff { name, address, sequence := UInt32.ofNat count }
      rw [place]
      rcases inserted : table.byPlace.insert Symbol.placeOrder
          { name, address, sequence := UInt32.ofNat count } with ⟨tree, _ | grew⟩
      · rw [inserted, number] at refused
        have next : UInt32.ofNat count + 1 = UInt32.ofNat (count + 1) :=
          (UInt32.ofNat_add count 1).symm
        dsimp only [Symbol.bumpSequence]
        rw [next]
        exact ih (by omega) (refused.mp rfl)
      · have free : count = (ledger.aliases address).length := by
          rw [inserted, number] at refused
          exact Nat.le_antisymm below (Nat.not_lt.mp fun taken => nomatch refused.mpr taken)
        rw [if_pos (by omega), Ledger.fresh, ← free, inserted]

/-- A name that the ledger does not have is in no node of the tree by name. -/
theorem name_free (refines : table.Refines ledger) {symbol : Symbol}
    (free : ledger.named? symbol.name = none)
    : ¬ ∃ stored ∈ table.byName.toList, Symbol.nameOrder symbol stored = .eq := by
  rintro ⟨stored, member, same⟩
  exact Ledger.named?_eq_none_iff.mp free stored (refines.names.mem_iff.mp member)
    (Symbol.nameOrder_eq_eq.mp same).symm

/-- The place of a new symbol is free in the tree by place. -/
theorem place_free (refines : table.Refines ledger) (name : String) {address : BitAddress}
    (room : (ledger.aliases address).length < UInt32.size)
    : ¬ ∃ stored ∈ table.byPlace.toList,
        Symbol.placeOrder (ledger.fresh name address) stored = .eq := by
  rw [← Avl.Tree.insert_refused_iff refines.placeOrder, refines.insert_refused_iff,
    ledger.toNat_sequence_fresh name room]
  exact Nat.lt_irrefl _

/-- Adding the symbol of a new name adds it to both trees and at the end of the ledger. -/
theorem add (refines : table.Refines ledger) {name : String} {address : BitAddress}
    (free : ledger.named? name = none) (room : (ledger.aliases address).length < UInt32.size)
    : (table.add (ledger.fresh name address)).Refines (ledger.append name address free room) := by
  have unnamed : ledger.named? (ledger.fresh name address).name = none := free
  obtain ⟨names, nameOrder⟩ :=
    Avl.Tree.insert_new refines.nameOrder (refines.name_free unnamed)
  obtain ⟨entries, placeOrder⟩ :=
    Avl.Tree.insert_new refines.placeOrder (refines.place_free name room)
  have last {symbols : List Symbol} (same : symbols.Perm ledger.symbols)
      : (ledger.fresh name address :: symbols).Perm
        (ledger.symbols ++ [ledger.fresh name address]) :=
    (same.cons _).trans (List.perm_append_singleton _ _).symm
  refine ⟨names.trans (last refines.names), entries.trans (last refines.entries), nameOrder,
    placeOrder, ?_⟩
  rw [SymbolTable.add, Ledger.append, List.length_append, refines.counted]
  rfl

/-- Defining a name again succeeds at its address only. -/
theorem define_known (refines : table.Refines ledger) {name : String} {symbol : Symbol}
    (known : ledger.named? name = some symbol) (address : BitAddress)
    : table.define name address
      = if symbol.address = address then .ok ⟨table, none⟩
        else .error (.redefined name symbol.address address) := by
  simp only [define, refines.findName?_eq, known]

/-- Defining a new name adds its symbol, unless all numbers at its address are taken. The tree by
name never refuses it.
-/
theorem define_new (refines : table.Refines ledger) {name : String}
    (free : ledger.named? name = none) (address : BitAddress)
    : table.define name address
      = if (ledger.aliases address).length < UInt32.size then
          .ok ⟨table.add (ledger.fresh name address), some (ledger.fresh name address)⟩
        else .error (.exhausted address) := by
  have placed : place table.byPlace { name, address } UInt32.size = _ :=
    refines.place_eq name (Nat.zero_add UInt32.size)
      (Nat.zero_le (ledger.aliases address).length)
  have accepted : (table.byName.insert Symbol.nameOrder { name, address }).grew ≠ none := by
    rw [Ne, Avl.Tree.insert_refused_iff refines.nameOrder]
    exact refines.name_free free
  simp only [define, refines.findName?_eq, free, placed]
  rcases inserted : table.byName.insert Symbol.nameOrder { name, address } with ⟨tree, _ | grew⟩
  · exact absurd (congrArg (·.grew) inserted) accepted
  · by_cases room : (ledger.aliases address).length < UInt32.size
    · simp only [if_pos room]
      rfl
    · simp only [if_neg room]

theorem define_free (refines : table.Refines ledger) {name : String} {address : BitAddress}
    (free : ledger.named? name = none) (room : (ledger.aliases address).length < UInt32.size)
    : table.define name address
      = .ok ⟨table.add (ledger.fresh name address), some (ledger.fresh name address)⟩ := by
  rw [refines.define_new free, if_pos room]

/-- A change to a symbol reaches it in both orders, each time in its place. -/
theorem lists_update (refines : table.Refines ledger) {symbol : Symbol}
    (member : symbol ∈ ledger.symbols) {change update : Symbol → Symbol}
    (agree : change symbol = update symbol)
    : (table.update symbol change).names = Symbol.changed table.names symbol.name update
      ∧ (table.update symbol change).entries
        = Symbol.changed table.entries symbol.name update := by
  have inNames : table.byName.find? (·.compareName symbol.name) = some symbol :=
    (refines.findName?_eq symbol.name).trans (Ledger.named?_eq_some_iff.mpr ⟨member, rfl⟩)
  have inPlaces : table.byPlace.find? (·.compareKey symbol.address symbol.sequence) = some symbol :=
    (refines.findPlace?_eq symbol.address symbol.sequence).trans
      (Ledger.placed?_eq_some_iff.mpr ⟨member, rfl, rfl⟩)
  have swapped {tree : Avl.Tree Symbol} (same : tree.toList.Perm ledger.symbols)
      {locate : Symbol → Ordering} (found : tree.find? locate = some symbol)
      : (tree.modify locate change).toList
        = Symbol.changed tree.toList symbol.name update := by
    obtain ⟨before, after, old, new⟩ := Avl.Tree.toList_modify found change
    rw [old] at same
    rw [new, old, agree, Symbol.changed_middle ((same.map _).nodup_iff.mpr ledger.distinct)]
  exact ⟨swapped refines.names inNames, swapped refines.entries inPlaces⟩

/-- A change that keeps keys reaches one symbol in each tree, the same one as in the ledger. -/
theorem update (refines : table.Refines ledger) {symbol : Symbol}
    (member : symbol ∈ ledger.symbols) {change update : Symbol → Symbol}
    (agree : change symbol = update symbol) (keeps : ∀ old, (update old).key = old.key)
    : (table.update symbol change).Refines (ledger.change symbol.name update keeps) := by
  obtain ⟨names, entries⟩ := refines.lists_update member agree
  have keys (symbols : List Symbol) := (Symbol.keys_changed symbols symbol.name keeps).symm
  refine ⟨?_, ?_, ?_, ?_, ?_⟩
  · exact names ▸ refines.names.map _
  · exact entries ▸ refines.entries.map _
  · exact names ▸ Symbol.increasing_of_keys (.inl rfl) (keys _) refines.nameOrder
  · exact entries ▸ Symbol.increasing_of_keys (.inr rfl) (keys _) refines.placeOrder
  · exact refines.counted.trans (List.length_map _).symm

end Refines

/-- A table follows a ledger in a request: the table afterwards stands for the ledger afterwards,
the answers are the same, and where the ledger has not changed, neither has the table.
-/
structure Follows {α : Type} (table : SymbolTable) (ledger : Ledger) (result : SymbolTable × α)
    (expected : Ledger × α) : Prop where
  refines : result.1.Refines expected.1
  answer : result.2 = expected.2
  unchanged : expected.1 = ledger → result.1 = table

namespace Refines

variable {table : SymbolTable} {ledger : Ledger}

theorem serve_define (refines : table.Refines ledger) (name : String) (address : BitAddress)
    : table.Follows ledger (table.serve (.define name address))
        (ledger.serve (.define name address)) := by
  simp only [serve, Ledger.serve]
  cases known : ledger.named? name with
  | some symbol =>
      rw [refines.define_known known, Ledger.define_known known]
      by_cases here : symbol.address = address
      · simp only [if_pos here]
        exact ⟨refines, rfl, fun _ => rfl⟩
      · simp only [if_neg here]
        exact ⟨refines, rfl, fun _ => rfl⟩
  | none =>
      by_cases room : (ledger.aliases address).length < UInt32.size
      · rw [refines.define_free known room, Ledger.define_free known room]
        exact ⟨refines.add known room, rfl, fun same => absurd same (Ledger.append_ne known room)⟩
      · rw [refines.define_new known, if_neg room, Ledger.define_exhausted known room]
        exact ⟨refines, rfl, fun _ => rfl⟩

theorem serve_label (refines : table.Refines ledger) (address : BitAddress)
    (letter : Option Char) (sequence : UInt32)
    : table.Follows ledger (table.serve (.label address letter sequence))
        (ledger.serve (.label address letter sequence)) := by
  have found := refines.nameAt?_eq address sequence
  cases placed : ledger.placed? address sequence with
  | some symbol =>
      simp only [serve, Ledger.serve, SymbolTable.label, Ledger.label, found, placed]
      exact ⟨refines, rfl, fun _ => rfl⟩
  | none =>
      rw [placed] at found
      cases letter with
      | none =>
          simp only [serve, Ledger.serve, SymbolTable.label, Ledger.label, found, placed]
          exact ⟨refines, rfl, fun _ => rfl⟩
      | some letter =>
          by_cases first : sequence = 0
          · subst first
            rw [serve_label_made found, Ledger.serve_label_made placed]
            exact refines.serve_define _ address
          · simp only [serve, Ledger.serve, SymbolTable.label, Ledger.label, found, placed,
              Option.map_none, if_neg first]
            exact ⟨refines, rfl, fun _ => rfl⟩

/-- What a definition or a label leaves stands for the ledger after the same request. -/
theorem of_define (refines : table.Refines ledger) {name : String} {address : BitAddress}
    {definition : Definition} (defined : table.define name address = .ok definition)
    : definition.table.Refines (ledger.serve (.define name address)).1 := by
  have follows := (refines.serve_define name address).refines
  simp only [SymbolTable.serve, defined] at follows
  exact follows

theorem of_label (refines : table.Refines ledger) {address : BitAddress} {letter : Option Char}
    {sequence : UInt32} {labelling : Labelling}
    (labelled : table.label address letter sequence = .ok labelling)
    : labelling.table.Refines (ledger.serve (.label address letter sequence)).1 := by
  have follows := (refines.serve_label address letter sequence).refines
  simp only [SymbolTable.serve, labelled] at follows
  exact follows

theorem serve_addReference (refines : table.Refines ledger) (target source : BitAddress)
    : table.Follows ledger (table.serve (.addReference target source))
        (ledger.serve (.addReference target source)) := by
  simp only [serve, Ledger.serve, SymbolTable.addReference, Ledger.addReference,
    refines.findPlace?_eq]
  cases placed : ledger.placed? target 0 with
  | none => exact ⟨refines, rfl, fun _ => rfl⟩
  | some symbol =>
      obtain ⟨member, -, -⟩ := Ledger.placed?_eq_some_iff.mp placed
      by_cases known : source ∈ symbol.references
      · simp only [List.contains_eq_mem, known, decide_true, if_true]
        exact ⟨refines, rfl, fun _ => rfl⟩
      · have added : symbol.addReference source = symbol.withReference source := by
          simp [Symbol.addReference, Symbol.withReference, known]
        have longer : symbol.withReference source ≠ symbol := by
          intro same
          have lengths := congrArg (fun symbol => symbol.references.length) same
          simp [Symbol.withReference] at lengths
        simp only [List.contains_eq_mem, known, decide_false, if_false, Bool.false_eq_true]
        have keeps := Symbol.key_withReference source
        exact ⟨refines.update member added keeps, rfl,
          fun same => absurd same (Ledger.change_ne member keeps longer)⟩

theorem serve_markDirect (refines : table.Refines ledger) (address : BitAddress)
    : table.Follows ledger (table.serve (.markDirect address))
        (ledger.serve (.markDirect address)) := by
  simp only [serve, Ledger.serve, SymbolTable.markDirect, Ledger.markDirect,
    refines.findPlace?_eq]
  cases placed : ledger.placed? address 0 with
  | none => exact ⟨refines, rfl, fun _ => rfl⟩
  | some symbol =>
      obtain ⟨member, -, -⟩ := Ledger.placed?_eq_some_iff.mp placed
      have added : symbol.markDirect = symbol.withUse := rfl
      have counted : symbol.withUse ≠ symbol := by
        intro same
        have counts := congrArg Symbol.directCount same
        simp [Symbol.withUse] at counts
      exact ⟨refines.update member added Symbol.key_withUse, rfl,
        fun same => absurd same (Ledger.change_ne member Symbol.key_withUse counted)⟩

/-- Whatever it is asked, a table follows its ledger. -/
theorem serve (refines : table.Refines ledger) (request : SymbolRequest)
    : table.Follows ledger (table.serve request) (ledger.serve request) := by
  cases request with
  | define name address => exact refines.serve_define name address
  | label address letter sequence => exact refines.serve_label address letter sequence
  | addReference target source => exact refines.serve_addReference target source
  | markDirect address => exact refines.serve_markDirect address

/-- Requests in turn keep a table with its ledger, by induction on them. -/
theorem run (refines : table.Refines ledger) (requests : List SymbolRequest)
    : (table.run requests).Refines (ledger.run requests) := by
  induction requests generalizing table ledger with
  | nil => exact refines
  | cons request rest ih => exact ih (refines.serve request).refines

end Refines

end SymbolTable

end SpeechRom
