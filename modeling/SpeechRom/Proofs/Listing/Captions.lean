import SpeechRom.Disassembly
import SpeechRom.Proofs.Symbol.Refinement

/-! Names in the listing. Above an instruction stand all names of its address, the made one among
them. Once an address has been listed its names are settled: whatever is listed later, at this
address or another, leaves them as they are.
-/

namespace SpeechRom

-----------------------------------------------------------------------------------------
-- Names at an address
-----------------------------------------------------------------------------------------

namespace Ledger

/-- The names at an address in the order of their definition. -/
def namesAt (ledger : Ledger) (address : BitAddress) : List String :=
  (ledger.aliases address).map (·.name)

theorem getElem?_namesAt (ledger : Ledger) (address : BitAddress) (sequence : UInt32)
    : (ledger.namesAt address)[sequence.toNat]?
      = (ledger.placed? address sequence).map (·.name) :=
  List.getElem?_map ..

theorem length_namesAt_le (ledger : Ledger) (address : BitAddress)
    : (ledger.namesAt address).length ≤ UInt32.size := by
  rw [namesAt, List.length_map]
  exact ledger.length_aliases_le address

/-- The first name is the one with the number zero. -/
theorem head?_namesAt (ledger : Ledger) (address : BitAddress)
    : (ledger.namesAt address).head? = (ledger.placed? address 0).map (·.name) := by
  rw [← getElem?_namesAt, List.head?_eq_getElem?]
  rfl

/-- Names at an address depend on the keys only. -/
theorem namesAt_of_keys {left right : Ledger}
    (same : left.symbols.map Symbol.key = right.symbols.map Symbol.key) (address : BitAddress)
    : left.namesAt address = right.namesAt address := by
  have through (ledger : Ledger)
      : ledger.namesAt address
        = ((ledger.symbols.map Symbol.key).filter (·.2.1 = address)).map (·.1) := by
    rw [List.filter_map, List.map_map]
    rfl
  rw [through, through, same]

theorem namesAt_append (ledger : Ledger) {name : String} {address : BitAddress}
    (free : ledger.named? name = none) (room : (ledger.aliases address).length < UInt32.size)
    (place : BitAddress)
    : (ledger.append name address free room).namesAt place
      = ledger.namesAt place ++ if address = place then [name] else [] := by
  by_cases here : address = place
  · simp [namesAt, aliases, Symbol.sharing, append, fresh, here]
  · simp [namesAt, aliases, Symbol.sharing, append, fresh, here]

theorem namesAt_eq_nil_iff {ledger : Ledger} {address : BitAddress}
    : ledger.namesAt address = [] ↔ ledger.placed? address 0 = none := by
  rw [← List.head?_eq_none_iff, head?_namesAt, Option.map_eq_none_iff]

/-- A look-up that succeeds gives the first name that the address has afterwards. -/
theorem head?_namesAt_label {ledger : Ledger} {address : BitAddress} {letter : Option Char}
    {name : Option String}
    (labelled : (ledger.serve (.label address letter 0)).2 = .ok (.name name))
    : ((ledger.serve (.label address letter 0)).1.namesAt address).head? = name := by
  cases placed : ledger.placed? address 0 with
  | some symbol =>
      simp only [serve, label, placed] at labelled ⊢
      rw [head?_namesAt, placed]
      exact SymbolAnswer.name.inj (Except.ok.inj labelled)
  | none =>
      have nameless := namesAt_eq_nil_iff.mpr placed
      cases letter with
      | none =>
          simp only [serve, label, placed] at labelled ⊢
          rw [nameless]
          exact SymbolAnswer.name.inj (Except.ok.inj labelled)
      | some letter =>
          rw [serve_label_made placed] at labelled ⊢
          have free := free_of_define placed labelled
          simp only [serve, define_free free (room_of_nameless placed)] at labelled ⊢
          rw [namesAt_append, nameless, if_pos rfl]
          exact SymbolAnswer.name.inj (Except.ok.inj labelled)

/-- A definition changes the names of its own address only. -/
theorem namesAt_define (ledger : Ledger) (name : String) {address place : BitAddress}
    (elsewhere : address ≠ place)
    : (ledger.define name address).1.namesAt place = ledger.namesAt place := by
  rcases ledger.define_cases name address with same | ⟨free, room, added⟩
  · rw [same]
  · rw [added, namesAt_append, if_neg elsewhere, List.append_nil]

theorem keys_markDirect (ledger : Ledger) (address : BitAddress)
    : (ledger.markDirect address).1.symbols.map Symbol.key = ledger.symbols.map Symbol.key := by
  unfold markDirect
  split
  · rfl
  · exact Symbol.keys_changed _ _ Symbol.key_withUse

end Ledger

namespace SymbolTable

/-- A table lists the names of its ledger from a number on, up to a bound on how many. Witness:
induction on the bound; it ends before the numbers do, so none of them comes twice.
-/
theorem Refines.namesFrom_eq {table : SymbolTable} {ledger : Ledger}
    (refines : table.Refines ledger) (address : BitAddress) {count bound : Nat}
    (reach : count + bound ≤ UInt32.size)
    : Listing.namesFrom table address (UInt32.ofNat count) bound
      = ((ledger.namesAt address).drop count).take bound := by
  induction bound generalizing count with
  | zero => rw [Listing.namesFrom, List.take_zero]
  | succ bound ih =>
      have number : (UInt32.ofNat count).toNat = count := UInt32.toNat_ofNat_of_lt (by omega)
      have found : table.nameAt? address (UInt32.ofNat count)
          = (ledger.namesAt address)[count]? := by
        rw [refines.nameAt?_eq, ← Ledger.getElem?_namesAt, number]
      rw [Listing.namesFrom, found]
      cases name : (ledger.namesAt address)[count]? with
      | none =>
          rw [List.drop_of_length_le (List.getElem?_eq_none_iff.mp name), List.take_nil]
      | some first =>
          obtain ⟨inside, rfl⟩ := List.getElem?_eq_some_iff.mp name
          have next : UInt32.ofNat count + 1 = UInt32.ofNat (count + 1) :=
            (UInt32.ofNat_add count 1).symm
          rw [List.drop_eq_getElem_cons inside, List.take_succ_cons, ← ih (by omega), ← next]

end SymbolTable

-----------------------------------------------------------------------------------------
-- Captions
-----------------------------------------------------------------------------------------

namespace Listing

/-- The lines above an instruction whose address has these names: a rule of 76 dashes and one line
for each name, all behind two comment characters, or a blank line if there are none.
-/
def caption (commentChar : Char) : List String → List String
  | [] => [""]
  | names =>
    String.ofList (commentChar :: commentChar :: List.replicate 76 '-') ::
      names.map fun name => String.ofList [commentChar, commentChar, ' '] ++ name ++ ":"

theorem caption_cons (commentChar : Char) (first : String) (rest : List String)
    : caption commentChar (first :: rest)
      = headingLine commentChar rule ::
          (first :: rest).map fun name => headingLine commentChar (" " ++ name ++ ":") := by
  have ruled : headingLine commentChar rule
      = String.ofList (commentChar :: commentChar :: List.replicate 76 '-') := by
    unfold headingLine rule
    rw [← String.ofList_append, List.cons_append, List.cons_append, List.nil_append]
  have named (name : String)
      : headingLine commentChar (" " ++ name ++ ":")
        = String.ofList [commentChar, commentChar, ' '] ++ name ++ ":" :=
    String.toList_injective (by simp [headingLine])
  simp only [ruled, named]
  rfl

/-- The lines of an instruction without those above it. -/
def body (commentChar : Char) (image : Image) (instruction : Instruction) : List String :=
  instructionLine commentChar instruction ::
    (FieldRow.ofInstruction image instruction).map (·.line commentChar)

/-- The letter of the label that an address receives when it is listed without a name. -/
def letterAt (image : Image) (address : BitAddress) : Option Char :=
  if image.isTagged address 1 TagSet.branchTarget then some 'L' else none

/-- Listing an address would not give it a name: it has one, or it is no branch target. -/
def Settled (image : Image) (ledger : Ledger) (address : BitAddress) : Prop :=
  letterAt image address = none ∨ ledger.namesAt address ≠ []

/-- What listing an address asks of the symbols. -/
def requests (image : Image) (address : BitAddress) : List SymbolRequest :=
  [.label address (letterAt image address) 0, .markDirect address]

theorem labelLines_eq {table : SymbolTable} {ledger : Ledger} (refines : table.Refines ledger)
    (commentChar : Char) {address : BitAddress} {first : String}
    (head : (ledger.namesAt address).head? = some first)
    : labelLines commentChar table address first
      = caption commentChar (ledger.namesAt address) := by
  have bound := ledger.length_namesAt_le address
  obtain ⟨rest, names⟩ := List.head?_eq_some_iff.mp head
  rw [names, List.length_cons] at bound
  have reach : 1 + (UInt32.size - 1) ≤ UInt32.size := by decide
  have others : namesFrom table address (UInt32.ofNat 1) (UInt32.size - 1) = rest := by
    rw [refines.namesFrom_eq address reach, names, List.drop_one, List.tail_cons,
      List.take_of_length_le (by omega)]
  rw [names, caption_cons, ← others]
  rfl

/-- A block once its label has been looked up. An address without a name is not counted. -/
theorem block_of_label {table named : SymbolTable} {ledger : Ledger} {image : Image}
    {instruction : Instruction} {added : Option Symbol} (refines : named.Refines ledger)
    (commentChar : Char)
    (labelled : table.label instruction.address (letterAt image instruction.address) 0
      = .ok ⟨named, (ledger.namesAt instruction.address).head?, added⟩)
    : block commentChar image table instruction
      = .ok ⟨caption commentChar (ledger.namesAt instruction.address)
            ++ body commentChar image instruction,
          (named.markDirect instruction.address).1, added⟩ := by
  rw [letterAt] at labelled
  simp only [block, labelled]
  cases head : (ledger.namesAt instruction.address).head? with
  | none =>
      have nameless := List.head?_eq_none_iff.mp head
      have uncounted : (named.markDirect instruction.address).1 = named := by
        rw [SymbolTable.markDirect, refines.findPlace?_eq, Ledger.namesAt_eq_nil_iff.mp nameless]
      rw [uncounted, nameless]
      rfl
  | some first =>
      dsimp only
      rw [labelLines_eq refines commentChar head]
      rfl

namespace Settled

variable {image : Image} {ledger : Ledger} {address : BitAddress}

/-- Where an address is settled, a look-up of its label changes nothing. -/
theorem serve_label (settled : Settled image ledger address)
    : (ledger.serve (.label address (letterAt image address) 0)).1 = ledger := by
  simp only [Ledger.serve, Ledger.label]
  cases placed : ledger.placed? address 0 with
  | some symbol => rfl
  | none =>
      rcases settled with plain | named
      · rw [plain]
      · exact absurd (Ledger.namesAt_eq_nil_iff.mpr placed) named

/-- A look-up that succeeds settles its address. -/
theorem of_label {name : Option String}
    (labelled : (ledger.serve (.label address (letterAt image address) 0)).2 = .ok (.name name))
    : Settled image (ledger.serve (.label address (letterAt image address) 0)).1 address := by
  cases letter : letterAt image address with
  | none => exact .inl letter
  | some made =>
      rw [letter] at labelled
      refine .inr fun nameless => ?_
      obtain ⟨symbol, placed, -⟩ := Ledger.placed?_of_key (Ledger.key_of_label labelled)
      cases (Ledger.namesAt_eq_nil_iff.mp nameless).symm.trans placed

theorem of_names {later : Ledger} (settled : Settled image ledger address)
    (same : later.namesAt address = ledger.namesAt address)
    : Settled image later address :=
  settled.imp_right fun named => same ▸ named

end Settled

/-- Counting a label changes no names. -/
theorem namesAt_markDirect (ledger : Ledger) (address place : BitAddress)
    : (ledger.serve (.markDirect address)).1.namesAt place = ledger.namesAt place :=
  Ledger.namesAt_of_keys (ledger.keys_markDirect address) place

/-- Listing an address leaves the names of settled addresses as they are. -/
theorem Settled.namesAt_requests {image : Image} {ledger : Ledger} {place : BitAddress}
    (settled : Settled image ledger place) (address : BitAddress)
    : (ledger.run (requests image address)).namesAt place = ledger.namesAt place := by
  simp only [requests, Ledger.run, List.foldl_cons, List.foldl_nil, namesAt_markDirect]
  by_cases here : address = place
  · rw [here, settled.serve_label]
  · simp only [Ledger.serve, Ledger.label]
    split
    · rfl
    · rfl
    · exact ledger.namesAt_define _ here

/-- A block that can be written has looked its label up. What it shows are the names of the address
after that, and then it counts the first of them.
-/
theorem block_labelled {table : SymbolTable} {ledger : Ledger} (refines : table.Refines ledger)
    {commentChar : Char} {image : Image} {instruction : Instruction} {next : Block}
    (listed : block commentChar image table instruction = .ok next)
    : let address := instruction.address
      let named := (ledger.serve (.label address (letterAt image address) 0)).1
      ∃ labelling,
        table.label address (letterAt image address) 0 = .ok labelling
        ∧ labelling.table.Refines named
        ∧ Settled image named address
        ∧ next = ⟨caption commentChar (named.namesAt address) ++ body commentChar image instruction,
            (labelling.table.markDirect address).1, labelling.added⟩ := by
  intro address named
  cases labelled : table.label address (letterAt image address) 0 with
  | error cause =>
      rw [letterAt] at labelled
      simp only [block, address, labelled] at listed
      cases listed
  | ok labelling =>
      obtain ⟨after, name, added⟩ := labelling
      have follows := refines.serve_label address (letterAt image address) 0
      simp only [SymbolTable.serve, labelled] at follows
      have head := Ledger.head?_namesAt_label follows.answer.symm
      refine ⟨_, rfl, follows.refines, .of_label follows.answer.symm, ?_⟩
      rw [← head] at labelled
      exact (Except.ok.inj
        ((block_of_label follows.refines commentChar labelled).symm.trans listed)).symm

/-- What a block shows and leaves: the lines are those of the names that its address has then. -/
theorem block_ok {table : SymbolTable} {ledger : Ledger} (refines : table.Refines ledger)
    {commentChar : Char} {image : Image} {instruction : Instruction} {next : Block}
    (listed : block commentChar image table instruction = .ok next)
    : let later := ledger.run (requests image instruction.address)
      next.symbols = table.run (requests image instruction.address)
      ∧ Settled image later instruction.address
      ∧ next.lines
        = caption commentChar (later.namesAt instruction.address)
          ++ body commentChar image instruction := by
  intro later
  obtain ⟨labelling, labelled, -, settled, rfl⟩ := block_labelled refines listed
  have names := namesAt_markDirect
    (ledger.serve (.label instruction.address (letterAt image instruction.address) 0)).1
    instruction.address instruction.address
  refine ⟨?_, settled.of_names names, ?_⟩
  · simp only [SymbolTable.run, requests, List.foldl_cons, List.foldl_nil, SymbolTable.serve,
      labelled]
  · exact congrArg (caption commentChar · ++ body commentChar image instruction) names.symm

-----------------------------------------------------------------------------------------
-- Listings
-----------------------------------------------------------------------------------------

/-- The lines of instructions whose addresses have the given names. -/
def linesOf (commentChar : Char) (image : Image) (names : BitAddress → List String)
    (instructions : List Instruction) : List String :=
  instructions.flatMap fun instruction =>
    caption commentChar (names instruction.address) ++ body commentChar image instruction

theorem linesOf_congr (commentChar : Char) (image : Image) {left right : BitAddress → List String}
    {instructions : List Instruction}
    (same : ∀ instruction ∈ instructions, left instruction.address = right instruction.address)
    : linesOf commentChar image left instructions = linesOf commentChar image right instructions :=
  List.flatMap_congr fun instruction member => by rw [same instruction member]

/-- What listing instructions in turn asks of the symbols. -/
def allRequests (image : Image) (instructions : List Instruction) : List SymbolRequest :=
  instructions.flatMap fun instruction => requests image instruction.address

theorem run_allRequests_cons (image : Image) (instruction : Instruction)
    (rest : List Instruction) (ledger : Ledger)
    : ledger.run (allRequests image (instruction :: rest))
      = (ledger.run (requests image instruction.address)).run (allRequests image rest) :=
  List.foldl_append ..

/-- Settled addresses keep their names for good, by induction on what is listed. -/
theorem Settled.namesAt_allRequests {image : Image} {ledger : Ledger} {place : BitAddress}
    (settled : Settled image ledger place) (instructions : List Instruction)
    : (ledger.run (allRequests image instructions)).namesAt place = ledger.namesAt place := by
  induction instructions generalizing ledger with
  | nil => rfl
  | cons instruction rest ih =>
      have same := settled.namesAt_requests instruction.address
      rw [run_allRequests_cons, ih (settled.of_names same), same]

/-- What a listing without an error shows and leaves. Every address that it lists is settled in the
end, and the names above an instruction are those that its address has then.
-/
theorem extend_ok {table : SymbolTable} {ledger : Ledger} (refines : table.Refines ledger)
    {commentChar : Char} {image : Image} {lines : Array String} {added : Array Symbol}
    {instructions : List Instruction}
    (finished : (extend commentChar image lines table added instructions).error = none)
    : let listing := extend commentChar image lines table added instructions
      let later := ledger.run (allRequests image instructions)
      listing.symbols = table.run (allRequests image instructions)
      ∧ (∀ instruction ∈ instructions, Settled image later instruction.address)
      ∧ listing.lines.toList
        = lines.toList ++ linesOf commentChar image later.namesAt instructions := by
  intro listing later
  induction instructions generalizing table ledger lines added with
  | nil => exact ⟨rfl, fun _ member => absurd member List.not_mem_nil, (List.append_nil _).symm⟩
  | cons instruction rest ih =>
      dsimp only [listing, later]
      rw [extend] at finished ⊢
      cases listed : block commentChar image table instruction with
      | error cause =>
          rw [listed] at finished
          cases finished
      | ok next =>
          rw [listed] at finished
          obtain ⟨symbols, settled, first⟩ := block_ok refines listed
          have moved : next.symbols.Refines (ledger.run (requests image instruction.address)) :=
            symbols ▸ refines.run _
          obtain ⟨run, restSettled, shown⟩ := ih moved finished
          have kept := settled.namesAt_allRequests rest
          refine ⟨?_, ?_, ?_⟩
          · rw [run, symbols]
            exact (List.foldl_append ..).symm
          · rw [run_allRequests_cons]
            exact List.forall_mem_cons.mpr ⟨settled.of_names kept, restSettled⟩
          · rw [run_allRequests_cons, linesOf, List.flatMap_cons, kept, ← first,
              ← List.append_assoc]
            rw [Array.toList_append] at shown
            exact shown

/-- A block at a settled address makes no label: it only counts the one that is there. -/
theorem Settled.block_eq {table : SymbolTable} {ledger : Ledger} {image : Image}
    {instruction : Instruction} (settled : Settled image ledger instruction.address)
    (refines : table.Refines ledger) (commentChar : Char)
    : block commentChar image table instruction
      = .ok ⟨caption commentChar (ledger.namesAt instruction.address)
            ++ body commentChar image instruction,
          (table.markDirect instruction.address).1, none⟩ := by
  refine block_of_label refines commentChar ?_
  have found : table.nameAt? instruction.address 0
      = (ledger.namesAt instruction.address).head? := by
    rw [refines.nameAt?_eq, Ledger.head?_namesAt]
  unfold SymbolTable.label
  rw [found]
  cases head : (ledger.namesAt instruction.address).head? with
  | some name => rfl
  | none =>
      rcases settled with plain | named
      · rw [plain]
      · exact absurd (List.head?_eq_none_iff.mp head) named

/-- A listing of settled addresses has no error and only counts labels, by induction on the
instructions that are left to list.
-/
theorem extend_settled {table : SymbolTable} {ledger : Ledger} (refines : table.Refines ledger)
    (commentChar : Char) {image : Image} (lines : Array String) (added : Array Symbol)
    {instructions : List Instruction}
    (settled : ∀ instruction ∈ instructions, Settled image ledger instruction.address)
    : let listing := extend commentChar image lines table added instructions
      listing.error = none
      ∧ listing.symbols
        = table.run (instructions.map fun instruction => .markDirect instruction.address) := by
  induction instructions generalizing table ledger lines added with
  | nil => exact ⟨rfl, rfl⟩
  | cons instruction rest ih =>
      obtain ⟨first, later⟩ := List.forall_mem_cons.mp settled
      have counted := (refines.serve_markDirect instruction.address).refines
      rw [extend, first.block_eq refines]
      refine ih counted _ _ fun other member => ?_
      exact (later other member).of_names (namesAt_markDirect ledger _ _)

end Listing

/-- What a second pass without an error prints and leaves. -/
theorem Disassembly.render_ok {disassembly : Disassembly} {ledger : Ledger}
    (refines : disassembly.symbols.Refines ledger)
    (finished : disassembly.render.printed.error = none)
    : let rendered := disassembly.render
      let instructions := disassembly.instructions.toList
      let later := ledger.run (Listing.allRequests disassembly.image instructions)
      rendered.disassembly.symbols.Refines later
      ∧ (∀ instruction ∈ instructions,
          Listing.Settled disassembly.image later instruction.address)
      ∧ rendered.printed.lines
        = Listing.banner disassembly.commentChar
          ++ Listing.linesOf disassembly.commentChar disassembly.image later.namesAt
              instructions := by
  intro rendered instructions later
  obtain ⟨symbols, settled, lines⟩ :=
    Listing.extend_ok refines (Option.map_eq_none_iff.mp finished)
  refine ⟨?_, settled, lines⟩
  dsimp only [rendered, render]
  rw [symbols]
  exact refines.run _

end SpeechRom
