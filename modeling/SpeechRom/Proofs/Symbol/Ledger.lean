import Mathlib.Data.List.Nodup
import SpeechRom.Proofs.Address
import SpeechRom.Symbol.Table

/-! Symbols as a plain list in the order of their definition, without any index. The list answers
whatever a symbol table is asked, and its names and places are never changed once they are there.
-/

namespace SpeechRom

-----------------------------------------------------------------------------------------
-- Requests
-----------------------------------------------------------------------------------------

/-- What a symbol table can be asked for. -/
inductive SymbolRequest where
  | define (name : String) (address : BitAddress)
  | label (address : BitAddress) (letter : Option Char) (sequence : UInt32)
  | addReference (target source : BitAddress)
  | markDirect (address : BitAddress)

/-- What a symbol table answers: a name, if there is one, or whether the request was news. -/
inductive SymbolAnswer where
  | name (text : Option String)
  | news (noted : Bool)

namespace SymbolTable

/-- The table after a request, and its answer. A request that fails leaves the table to the next
one.
-/
def serve (table : SymbolTable)
    : SymbolRequest → SymbolTable × Except SymbolError SymbolAnswer
  | .define name address =>
    match table.define name address with
    | .error error => (table, .error error)
    | .ok definition => (definition.table, .ok (.name (some name)))
  | .label address letter sequence =>
    match table.label address letter sequence with
    | .error error => (table, .error error)
    | .ok labelling => (labelling.table, .ok (.name labelling.name))
  | .addReference target source =>
    ((table.addReference target source).1, .ok (.news (table.addReference target source).2))
  | .markDirect address =>
    ((table.markDirect address).1, .ok (.news (table.markDirect address).2))

/-- Where an address has no symbol, asking for a label with a letter is defining the made label. -/
theorem serve_label_made {table : SymbolTable} {address : BitAddress}
    (nameless : table.nameAt? address 0 = none) (letter : Char)
    : table.serve (.label address (some letter) 0)
      = table.serve (.define (madeLabel letter address) address) := by
  simp only [serve, label, nameless]
  cases table.define (madeLabel letter address) address <;> rfl

/-- The table after requests in turn. -/
def run (table : SymbolTable) (requests : List SymbolRequest) : SymbolTable :=
  requests.foldl (fun table request => (table.serve request).1) table

end SymbolTable

-----------------------------------------------------------------------------------------
-- Ledgers
-----------------------------------------------------------------------------------------

namespace Symbol

/-- What stays of a symbol for good: its name and its place. -/
def key (symbol : Symbol) : String × BitAddress × UInt32 :=
  (symbol.name, symbol.address, symbol.sequence)

/-- The symbol with one more reference after those that it has. -/
def withReference (source : BitAddress) (symbol : Symbol) : Symbol :=
  { symbol with references := symbol.references ++ [source] }

theorem key_withReference (source : BitAddress) (symbol : Symbol)
    : (symbol.withReference source).key = symbol.key := rfl

/-- The symbol with one more use as a label. After 4294967295 uses the count starts again. -/
def withUse (symbol : Symbol) : Symbol :=
  { symbol with directCount := symbol.directCount + 1 }

theorem key_withUse (symbol : Symbol) : symbol.withUse.key = symbol.key := rfl

/-- The symbols of a list that share an address. -/
def sharing (symbols : List Symbol) (address : BitAddress) : List Symbol :=
  symbols.filter (·.address = address)

/-- At every address the sequence numbers count up from zero. -/
def Numbered (symbols : List Symbol) : Prop :=
  ∀ address,
    (sharing symbols address).map (·.sequence.toNat)
      = List.range (sharing symbols address).length

/-- Names and sequence numbers depend on the keys only. -/
theorem names_of_keys {left right : List Symbol} (same : left.map key = right.map key)
    : left.map (·.name) = right.map (·.name) := by
  have names := congrArg (List.map Prod.fst) same
  rw [List.map_map, List.map_map] at names
  exact names

theorem Numbered.of_keys {left right : List Symbol} (numbered : Numbered left)
    (same : left.map key = right.map key)
    : Numbered right := by
  intro address
  have through (symbols : List Symbol)
      : (sharing symbols address).map (·.sequence.toNat)
        = ((symbols.map key).filter (·.2.1 = address)).map (·.2.2.toNat) := by
    rw [List.filter_map, List.map_map]
    rfl
  have sequences : (sharing right address).map (·.sequence.toNat)
      = (sharing left address).map (·.sequence.toNat) := by
    rw [through, through, same]
  have lengths := congrArg List.length sequences
  rw [List.length_map, List.length_map] at lengths
  rw [sequences, lengths, numbered address]

/-- The symbols with those of a name changed. -/
def changed (symbols : List Symbol) (name : String) (update : Symbol → Symbol) : List Symbol :=
  symbols.map fun symbol => if symbol.name = name then update symbol else symbol

theorem keys_changed (symbols : List Symbol) (name : String) {update : Symbol → Symbol}
    (keeps : ∀ symbol, (update symbol).key = symbol.key)
    : (changed symbols name update).map key = symbols.map key := by
  rw [changed, List.map_map]
  refine List.map_congr_left fun symbol _ => ?_
  simp only [Function.comp]
  split
  · exact keeps symbol
  · rfl

theorem changed_absent {symbols : List Symbol} {name : String}
    (absent : ∀ symbol ∈ symbols, symbol.name ≠ name) (update : Symbol → Symbol)
    : changed symbols name update = symbols :=
  (List.map_congr_left fun symbol member => if_neg (absent symbol member)).trans
    (List.map_id' symbols)

/-- Among distinct names a change reaches one symbol, in its place. -/
theorem changed_middle {before after : List Symbol} {symbol : Symbol}
    (distinct : ((before ++ symbol :: after).map (·.name)).Nodup) (update : Symbol → Symbol)
    : changed (before ++ symbol :: after) symbol.name update
      = before ++ update symbol :: after := by
  rw [List.map_append, List.map_cons] at distinct
  obtain ⟨-, rear, apart⟩ := List.nodup_append.mp distinct
  have front : changed before symbol.name update = before :=
    changed_absent (fun old member =>
      apart old.name (List.mem_map_of_mem member) symbol.name List.mem_cons_self) update
  have back : changed after symbol.name update = after := by
    refine changed_absent (fun old member same => (List.nodup_cons.mp rear).1 ?_) update
    rw [← same]
    exact List.mem_map_of_mem member
  simp only [changed] at front back
  rw [changed, List.map_append, List.map_cons, front, back, if_pos rfl]

end Symbol

/-- Symbols in the order of their definition. Their names are distinct, and those at one address
are numbered from zero on.
-/
structure Ledger where
  symbols : List Symbol
  distinct : (symbols.map (·.name)).Nodup
  numbered : Symbol.Numbered symbols

namespace Ledger

/-- A ledger without symbols. -/
def empty : Ledger := ⟨[], List.nodup_nil, fun _ => rfl⟩

/-- The symbols at an address in the order of their definition. -/
def aliases (ledger : Ledger) (address : BitAddress) : List Symbol :=
  Symbol.sharing ledger.symbols address

/-- The symbol of a name. -/
def named? (ledger : Ledger) (name : String) : Option Symbol :=
  ledger.symbols.find? (·.name = name)

/-- The symbol that was defined at an address after so many others. -/
def placed? (ledger : Ledger) (address : BitAddress) (sequence : UInt32) : Option Symbol :=
  (ledger.aliases address)[sequence.toNat]?

/-- The symbol that a new name at an address becomes: its number is that of the symbols that are
there already.
-/
def fresh (ledger : Ledger) (name : String) (address : BitAddress) : Symbol where
  name
  address
  sequence := UInt32.ofNat (ledger.aliases address).length

theorem toNat_sequence_fresh (ledger : Ledger) (name : String) {address : BitAddress}
    (room : (ledger.aliases address).length < UInt32.size)
    : (ledger.fresh name address).sequence.toNat = (ledger.aliases address).length :=
  UInt32.toNat_ofNat_of_lt room

theorem named?_eq_none_iff {ledger : Ledger} {name : String}
    : ledger.named? name = none ↔ ∀ symbol ∈ ledger.symbols, symbol.name ≠ name := by
  simp [named?]

/-- Adds a name at an address where a number is left for it. -/
def append (ledger : Ledger) (name : String) (address : BitAddress)
    (free : ledger.named? name = none) (room : (ledger.aliases address).length < UInt32.size)
    : Ledger where
  symbols := ledger.symbols ++ [ledger.fresh name address]
  distinct := by
    rw [List.map_append, List.nodup_append]
    refine ⟨ledger.distinct, List.nodup_singleton _, ?_⟩
    intro known knownMember new newMember same
    obtain ⟨symbol, member, rfl⟩ := List.mem_map.mp knownMember
    obtain rfl : new = name := by simpa [fresh] using newMember
    exact named?_eq_none_iff.mp free symbol member same
  numbered := by
    intro place
    have old := ledger.numbered place
    by_cases here : address = place
    · subst here
      have more : Symbol.sharing (ledger.symbols ++ [ledger.fresh name address]) address
          = Symbol.sharing ledger.symbols address ++ [ledger.fresh name address] := by
        simp [Symbol.sharing, fresh]
      rw [more, List.map_append, old, List.length_append, List.length_singleton,
        List.range_succ, List.map_singleton, ledger.toNat_sequence_fresh name room]
      rfl
    · have same : Symbol.sharing (ledger.symbols ++ [ledger.fresh name address]) place
          = Symbol.sharing ledger.symbols place := by
        simp [Symbol.sharing, fresh, here]
      rw [same, old]

/-- Changes the symbol of a name without touching keys. -/
def change (ledger : Ledger) (name : String) (update : Symbol → Symbol)
    (keeps : ∀ symbol, (update symbol).key = symbol.key) : Ledger where
  symbols := Symbol.changed ledger.symbols name update
  distinct := by
    rw [Symbol.names_of_keys (Symbol.keys_changed ledger.symbols name keeps)]
    exact ledger.distinct
  numbered := ledger.numbered.of_keys (Symbol.keys_changed _ name keeps).symm

-----------------------------------------------------------------------------------------
-- Answers
-----------------------------------------------------------------------------------------

/-- Defines a name. A name that is known is only compared with the address that it has, and a new
one needs a number at its address.
-/
def define (ledger : Ledger) (name : String) (address : BitAddress)
    : Ledger × Except SymbolError String :=
  match found : ledger.named? name with
  | some symbol =>
    if symbol.address = address then (ledger, .ok name)
    else (ledger, .error (.redefined name symbol.address address))
  | none =>
    if room : (ledger.aliases address).length < UInt32.size then
      (ledger.append name address found room, .ok name)
    else (ledger, .error (.exhausted address))

/-- Gives the name at a place. Where there is none and a letter is given for the first place of an
address, the letter and the number of the byte in hexadecimal are defined as a name.
-/
def label (ledger : Ledger) (address : BitAddress) (letter : Option Char) (sequence : UInt32)
    : Ledger × Except SymbolError (Option String) :=
  match ledger.placed? address sequence, letter with
  | some symbol, _ => (ledger, .ok (some symbol.name))
  | none, none => (ledger, .ok none)
  | none, some letter =>
    if sequence = 0 then
      let name := String.singleton letter ++ "_" ++ Text.hexPadded 4 (address.toNat / 8)
      ((ledger.define name address).1, (ledger.define name address).2.map some)
    else (ledger, .ok none)

/-- Notes a reference with the first symbol of the target, once for each source. -/
def addReference (ledger : Ledger) (target source : BitAddress) : Ledger × Bool :=
  match ledger.placed? target 0 with
  | none => (ledger, false)
  | some symbol =>
    if source ∈ symbol.references then (ledger, false)
    else
      (ledger.change symbol.name (·.withReference source) (Symbol.key_withReference source), true)

/-- Counts a use of the first symbol of an address. -/
def markDirect (ledger : Ledger) (address : BitAddress) : Ledger × Bool :=
  match ledger.placed? address 0 with
  | none => (ledger, false)
  | some symbol => (ledger.change symbol.name (·.withUse) Symbol.key_withUse, true)

/-- The ledger after a request, and its answer. -/
def serve (ledger : Ledger) : SymbolRequest → Ledger × Except SymbolError SymbolAnswer
  | .define name address =>
    ((ledger.define name address).1, (ledger.define name address).2.map (.name <| some ·))
  | .label address letter sequence =>
    ((ledger.label address letter sequence).1,
      (ledger.label address letter sequence).2.map .name)
  | .addReference target source =>
    ((ledger.addReference target source).1, .ok (.news (ledger.addReference target source).2))
  | .markDirect address =>
    ((ledger.markDirect address).1, .ok (.news (ledger.markDirect address).2))

/-- The ledger after requests in turn. -/
def run (ledger : Ledger) (requests : List SymbolRequest) : Ledger :=
  requests.foldl (fun ledger request => (ledger.serve request).1) ledger

-----------------------------------------------------------------------------------------
-- Names, places and keys
-----------------------------------------------------------------------------------------

/-- A name belongs to one symbol. -/
theorem named?_eq_some_iff {ledger : Ledger} {name : String} {symbol : Symbol}
    : ledger.named? name = some symbol ↔ symbol ∈ ledger.symbols ∧ symbol.name = name := by
  constructor
  · intro found
    exact ⟨List.mem_of_find?_eq_some found, by simpa using List.find?_some found⟩
  · rintro ⟨member, rfl⟩
    cases found : ledger.named? symbol.name with
    | none => exact absurd rfl (named?_eq_none_iff.mp found symbol member)
    | some other =>
        have otherMember := List.mem_of_find?_eq_some found
        have sameName : other.name = symbol.name := by simpa using List.find?_some found
        rw [List.inj_on_of_nodup_map ledger.distinct otherMember member sameName]

/-- A place belongs to one symbol. Witness: the number of a symbol is its index among those at its
address.
-/
theorem placed?_eq_some_iff {ledger : Ledger} {address : BitAddress} {sequence : UInt32}
    {symbol : Symbol}
    : ledger.placed? address sequence = some symbol
      ↔ symbol ∈ ledger.symbols ∧ symbol.address = address ∧ symbol.sequence = sequence := by
  have index {place : Nat} (found : (ledger.aliases address)[place]? = some symbol)
      : symbol.sequence.toNat = place := by
    have numbers := ledger.numbered address
    have mapped : ((ledger.aliases address).map (·.sequence.toNat))[place]?
        = some symbol.sequence.toNat := by
      rw [List.getElem?_map, found]
      rfl
    rw [aliases, numbers, List.getElem?_range] at mapped
    · exact (Option.some.inj mapped).symm
    · exact (List.getElem?_eq_some_iff.mp found).1
  constructor
  · intro found
    have member := List.mem_of_getElem? found
    rw [aliases, Symbol.sharing, List.mem_filter] at member
    exact ⟨member.1, by simpa using member.2, UInt32.toNat_inj.mp (index found)⟩
  · rintro ⟨member, rfl, rfl⟩
    have shared : symbol ∈ ledger.aliases symbol.address := by
      simp [aliases, Symbol.sharing, member]
    obtain ⟨place, found⟩ := List.getElem?_of_mem shared
    rw [placed?, index found, found]

/-- A place is free as soon as all symbols at its address have smaller numbers. -/
theorem placed?_eq_none_iff {ledger : Ledger} {address : BitAddress} {sequence : UInt32}
    : ledger.placed? address sequence = none ↔ (ledger.aliases address).length ≤ sequence.toNat :=
  List.getElem?_eq_none_iff

/-- No address has more symbols than there are numbers. Witness: the symbol behind the last number
would have a number beyond it.
-/
theorem length_aliases_le (ledger : Ledger) (address : BitAddress)
    : (ledger.aliases address).length ≤ UInt32.size := by
  rcases Nat.lt_or_ge UInt32.size (ledger.aliases address).length with long | short
  · have last : UInt32.size ∈ (ledger.aliases address).map (·.sequence.toNat) := by
      rw [aliases, ledger.numbered address, List.mem_range]
      exact long
    obtain ⟨symbol, -, number⟩ := List.mem_map.mp last
    exact absurd number (Nat.ne_of_lt symbol.sequence.toNat_lt_size)
  · exact short

theorem aliases_eq_nil {ledger : Ledger} {address : BitAddress}
    (nameless : ledger.placed? address 0 = none)
    : ledger.aliases address = [] :=
  List.length_eq_zero_iff.mp (Nat.le_zero.mp (placed?_eq_none_iff.mp nameless))

/-- Where there is no symbol all numbers are left. -/
theorem room_of_nameless {ledger : Ledger} {address : BitAddress}
    (nameless : ledger.placed? address 0 = none)
    : (ledger.aliases address).length < UInt32.size := by
  rw [aliases_eq_nil nameless]
  decide

/-- A new name is the first one of its address only where there is no symbol yet. -/
theorem nameless_of_fresh {ledger : Ledger} {name : String} {address : BitAddress}
    (room : (ledger.aliases address).length < UInt32.size)
    (first : (ledger.fresh name address).sequence = 0)
    : ledger.placed? address 0 = none := by
  have number := (ledger.toNat_sequence_fresh name room).symm.trans (congrArg UInt32.toNat first)
  exact placed?_eq_none_iff.mpr (Nat.le_of_eq number)

theorem serve_label_made {ledger : Ledger} {address : BitAddress}
    (nameless : ledger.placed? address 0 = none) (letter : Char)
    : ledger.serve (.label address (some letter) 0)
      = ledger.serve (.define (SymbolTable.madeLabel letter address) address) := by
  have name : String.singleton letter ++ "_" ++ Text.hexPadded 4 (address.toNat / 8)
      = SymbolTable.madeLabel letter address := by
    have start : String.singleton letter ++ "_" = String.ofList [letter, '_'] :=
      String.toList_injective (by simp)
    rw [SymbolTable.madeLabel, BitAddress.toNat_byte, start]
  simp only [serve, label, nameless, name]
  cases (ledger.define (SymbolTable.madeLabel letter address) address).2 <;> rfl

theorem define_known {ledger : Ledger} {name : String} {symbol : Symbol}
    (known : ledger.named? name = some symbol) (address : BitAddress)
    : ledger.define name address
      = if symbol.address = address then (ledger, .ok name)
        else (ledger, .error (.redefined name symbol.address address)) := by
  unfold define
  split
  · rename_i found
    rw [Option.some.inj (found.symm.trans known)]
  · rename_i free
    cases free.symm.trans known

theorem define_free {ledger : Ledger} {name : String} (free : ledger.named? name = none)
    {address : BitAddress} (room : (ledger.aliases address).length < UInt32.size)
    : ledger.define name address = (ledger.append name address free room, .ok name) := by
  unfold define
  split
  · rename_i found
    cases found.symm.trans free
  · exact dif_pos room

theorem define_exhausted {ledger : Ledger} {name : String} (free : ledger.named? name = none)
    {address : BitAddress} (full : ¬ (ledger.aliases address).length < UInt32.size)
    : ledger.define name address = (ledger, .error (.exhausted address)) := by
  unfold define
  split
  · rename_i found
    cases found.symm.trans free
  · exact dif_neg full

/-- A definition leaves the ledger as it is or adds its name. -/
theorem define_cases (ledger : Ledger) (name : String) (address : BitAddress)
    : (ledger.define name address).1 = ledger
      ∨ ∃ free room, (ledger.define name address).1 = ledger.append name address free room := by
  unfold define
  split
  · split
    · exact .inl rfl
    · exact .inl rfl
  · rename_i free
    split
    · rename_i room
      exact .inr ⟨free, room, rfl⟩
    · exact .inl rfl

/-- A name that can be defined where there is no symbol is new: if it were known, it would stand
elsewhere.
-/
theorem free_of_define {ledger : Ledger} {name : String} {address : BitAddress}
    (nameless : ledger.placed? address 0 = none) {answer : SymbolAnswer}
    (defined : (ledger.serve (.define name address)).2 = .ok answer)
    : ledger.named? name = none := by
  cases known : ledger.named? name with
  | none => rfl
  | some symbol =>
      have elsewhere : symbol.address ≠ address := by
        intro here
        obtain ⟨member, -⟩ := named?_eq_some_iff.mp known
        have shared : symbol ∈ ledger.aliases address :=
          List.mem_filter.mpr ⟨member, decide_eq_true here⟩
        rw [aliases_eq_nil nameless] at shared
        cases shared
      simp only [serve, define_known known, if_neg elsewhere] at defined
      cases defined

/-- The key of a symbol finds it. -/
theorem placed?_of_key {ledger : Ledger} {name : String} {address : BitAddress}
    {sequence : UInt32}
    (member : (name, address, sequence) ∈ ledger.symbols.map Symbol.key)
    : ∃ symbol, ledger.placed? address sequence = some symbol ∧ symbol.name = name := by
  obtain ⟨symbol, inside, key⟩ := List.mem_map.mp member
  obtain ⟨rfl, rfl, rfl⟩ : symbol.name = name ∧ symbol.address = address
      ∧ symbol.sequence = sequence := by
    simpa only [Symbol.key, Prod.mk.injEq] using key
  exact ⟨symbol, placed?_eq_some_iff.mpr ⟨inside, rfl, rfl⟩, rfl⟩

/-- A label that is asked for with a letter is the name of the first symbol afterwards. -/
theorem key_of_label {ledger : Ledger} {target : BitAddress} {letter : Char} {name : Option String}
    (labelled : (ledger.serve (.label target (some letter) 0)).2 = .ok (.name name))
    : (name.getD "", target, 0)
      ∈ (ledger.serve (.label target (some letter) 0)).1.symbols.map Symbol.key := by
  cases placed : ledger.placed? target 0 with
  | some symbol =>
      obtain ⟨member, rfl, first⟩ := placed?_eq_some_iff.mp placed
      simp only [serve, label, placed] at labelled ⊢
      obtain rfl : some symbol.name = name := SymbolAnswer.name.inj (Except.ok.inj labelled)
      exact List.mem_map.mpr ⟨symbol, member, by rw [Symbol.key, first]; rfl⟩
  | none =>
      rw [serve_label_made placed] at labelled ⊢
      have room := room_of_nameless placed
      have known := free_of_define placed labelled
      simp only [serve, define_free known room] at labelled ⊢
      obtain rfl : some (SymbolTable.madeLabel letter target) = name :=
        SymbolAnswer.name.inj (Except.ok.inj labelled)
      have last : ledger.fresh (SymbolTable.madeLabel letter target) target
          ∈ (ledger.append _ target known room).symbols :=
        List.mem_append_right _ (List.mem_singleton.mpr rfl)
      refine List.mem_map.mpr ⟨_, last, ?_⟩
      rw [Symbol.key, fresh, aliases_eq_nil placed]
      rfl

/-- A ledger is not the same with one more symbol. -/
theorem append_ne {ledger : Ledger} {name : String} {address : BitAddress}
    (free : ledger.named? name = none) (room : (ledger.aliases address).length < UInt32.size)
    : ledger.append name address free room ≠ ledger := by
  intro same
  have lengths := congrArg (fun ledger => ledger.symbols.length) same
  simp [append] at lengths

/-- A ledger is not the same with a symbol that is not. -/
theorem change_ne {ledger : Ledger} {symbol : Symbol} (member : symbol ∈ ledger.symbols)
    {update : Symbol → Symbol} (keeps : ∀ symbol, (update symbol).key = symbol.key)
    (differs : update symbol ≠ symbol)
    : ledger.change symbol.name update keeps ≠ ledger := by
  intro same
  have symbols : Symbol.changed ledger.symbols symbol.name update = ledger.symbols :=
    congrArg Ledger.symbols same
  have distinct := ledger.distinct
  obtain ⟨before, after, split⟩ := List.append_of_mem member
  rw [split] at symbols distinct
  rw [Symbol.changed_middle distinct] at symbols
  exact differs (List.cons.inj (List.append_cancel_left symbols)).1

theorem keys_define (ledger : Ledger) (name : String) (address : BitAddress)
    : ledger.symbols.map Symbol.key <+: (ledger.define name address).1.symbols.map Symbol.key := by
  rcases ledger.define_cases name address with same | ⟨free, room, added⟩
  · exact same.symm ▸ List.prefix_rfl
  · exact added ▸ (List.prefix_append _ _).map _

theorem keys_change (ledger : Ledger) (name : String) (update : Symbol → Symbol)
    (keeps : ∀ symbol, (update symbol).key = symbol.key)
    : ledger.symbols.map Symbol.key
      <+: (ledger.change name update keeps).symbols.map Symbol.key := by
  have same : (ledger.change name update keeps).symbols.map Symbol.key
      = ledger.symbols.map Symbol.key := Symbol.keys_changed _ _ keeps
  exact same ▸ List.prefix_rfl

/-- A request keeps all names and places, and what it adds comes after them. -/
theorem keys_serve (ledger : Ledger) (request : SymbolRequest)
    : ledger.symbols.map Symbol.key <+: (ledger.serve request).1.symbols.map Symbol.key := by
  cases request with
  | define name address => exact ledger.keys_define name address
  | label address letter sequence =>
      dsimp only [serve]
      unfold label
      split
      · exact List.prefix_rfl
      · exact List.prefix_rfl
      · split
        · exact ledger.keys_define _ address
        · exact List.prefix_rfl
  | addReference target source =>
      dsimp only [serve]
      unfold addReference
      split
      · exact List.prefix_rfl
      · split
        · exact List.prefix_rfl
        · exact ledger.keys_change _ _ (Symbol.key_withReference source)
  | markDirect address =>
      dsimp only [serve]
      unfold markDirect
      split
      · exact List.prefix_rfl
      · exact ledger.keys_change _ _ Symbol.key_withUse

end Ledger

end SpeechRom
