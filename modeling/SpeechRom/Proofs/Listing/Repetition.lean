import SpeechRom.Proofs.Decode.Replay
import SpeechRom.Proofs.Listing.Captions

/-! Passes in any order. Once both passes have been made, each can be made again and again: the
first one decodes the same instructions, the second one prints the same text, and nothing changes
but how often labels have been printed.
-/

namespace SpeechRom

-----------------------------------------------------------------------------------------
-- Counts
-----------------------------------------------------------------------------------------

/-- A view that a change does not show stays the same for all records of a tree. -/
theorem Avl.Tree.map_toList_modify {α β : Type} {change : α → α} {view : α → β}
    (hidden : ∀ record, view (change record) = view record) (locate : α → Ordering)
    (tree : Avl.Tree α)
    : (tree.modify locate change).toList.map view = tree.toList.map view := by
  induction tree with
  | leaf => rfl
  | node balance left record right ihLeft ihRight =>
      rw [modify]
      split
      · simp only [toList_node, List.map_append, List.map_cons, hidden]
      · simp only [toList_node, List.map_append, List.map_cons, ihLeft]
      · simp only [toList_node, List.map_append, List.map_cons, ihRight]

/-- The symbol without the number of times that it was printed as a label. -/
def Symbol.uncounted (symbol : Symbol) : Symbol := { symbol with directCount := 0 }

namespace SymbolTable

/-- Two tables agree in everything but how often labels were printed: in names, addresses, sequence
numbers and references, and in the order of both trees.
-/
structure SameButCounts (left right : SymbolTable) : Prop where
  names : left.names.map Symbol.uncounted = right.names.map Symbol.uncounted
  entries : left.entries.map Symbol.uncounted = right.entries.map Symbol.uncounted
  size : left.size = right.size
  commentChar : left.commentChar = right.commentChar

theorem SameButCounts.refl (table : SymbolTable) : table.SameButCounts table :=
  ⟨rfl, rfl, rfl, rfl⟩

theorem SameButCounts.trans {left middle right : SymbolTable} (first : left.SameButCounts middle)
    (second : middle.SameButCounts right)
    : left.SameButCounts right :=
  ⟨first.names.trans second.names, first.entries.trans second.entries,
    first.size.trans second.size, first.commentChar.trans second.commentChar⟩

theorem markDirect_sameButCounts (table : SymbolTable) (address : BitAddress)
    : (table.markDirect address).1.SameButCounts table := by
  have hidden (symbol : Symbol) : symbol.markDirect.uncounted = symbol.uncounted := rfl
  unfold markDirect
  split
  · exact .refl table
  · exact ⟨Avl.Tree.map_toList_modify hidden _ _, Avl.Tree.map_toList_modify hidden _ _, rfl, rfl⟩

/-- Counting labels in turn changes counts only, by induction on them. -/
theorem run_markDirect_sameButCounts (table : SymbolTable) (instructions : List Instruction)
    : let requests := instructions.map fun instruction => .markDirect instruction.address
      (table.run requests).SameButCounts table := by
  induction instructions generalizing table with
  | nil => exact .refl table
  | cons instruction rest ih => exact (ih _).trans (table.markDirect_sameButCounts _)

end SymbolTable

namespace Ledger.Notes

variable {image : Image} {decoded : List Instruction} {ledger : Ledger}

theorem of_sameBits {other : Image} (notes : ledger.Notes image decoded)
    (same : other.SameBits image)
    : ledger.Notes other decoded := by
  refine ⟨fun instruction member branch => ?_, fun symbol member => ?_⟩
  · rw [same.target]
    exact notes.named instruction member branch
  · rw [same.sources]
    exact notes.referred symbol member

/-- Counting a label leaves references alone. -/
theorem markDirect (notes : ledger.Notes image decoded) (address : BitAddress)
    : (ledger.serve (.markDirect address)).1.Notes image decoded := by
  refine ⟨fun instruction member branch => ?_, ?_⟩
  · rw [Ledger.serve, ledger.keys_markDirect]
    exact notes.named instruction member branch
  · dsimp only [Ledger.serve, Ledger.markDirect]
    split
    · exact notes.referred
    · intro symbol member
      obtain ⟨old, inside, rfl⟩ := List.mem_map.mp member
      split
      · exact notes.referred old inside
      · exact notes.referred old inside

/-- Listing instructions leaves references alone, by induction on them. -/
theorem allRequests (notes : ledger.Notes image decoded) (listed : Image)
    (instructions : List Instruction)
    : (ledger.run (Listing.allRequests listed instructions)).Notes image decoded := by
  induction instructions generalizing ledger with
  | nil => exact notes
  | cons instruction rest ih =>
      rw [Listing.run_allRequests_cons]
      refine ih (Notes.markDirect ?_ instruction.address)
      cases Listing.letterAt listed instruction.address with
      | some letter => exact notes.label instruction.address letter
      | none =>
          cases placed : ledger.placed? instruction.address 0 with
          | some | none =>
              simp only [Ledger.serve, Ledger.label, placed]
              exact notes

end Ledger.Notes

-----------------------------------------------------------------------------------------
-- Passes after passes
-----------------------------------------------------------------------------------------

namespace Disassembly

/-- The disassembly after a pass. -/
def perform (disassembly : Disassembly) : Pass → Disassembly
  | .decoding => disassembly.decodeAll.disassembly
  | .listing => disassembly.render.disassembly

/-- The disassembly after passes in turn. -/
def performAll (disassembly : Disassembly) (passes : List Pass) : Disassembly :=
  passes.foldl perform disassembly

/-- Two disassemblies agree in everything but how often labels were printed. -/
structure SameButCounts (left right : Disassembly) : Prop where
  rest : left = { right with symbols := left.symbols }
  symbols : left.symbols.SameButCounts right.symbols

theorem SameButCounts.refl (disassembly : Disassembly) : disassembly.SameButCounts disassembly :=
  ⟨rfl, .refl _⟩

theorem SameButCounts.image {left right : Disassembly} (same : left.SameButCounts right)
    : left.image = right.image := by
  rw [same.rest]

theorem SameButCounts.instructions {left right : Disassembly} (same : left.SameButCounts right)
    : left.instructions = right.instructions := by
  rw [same.rest]

theorem SameButCounts.commentChar {left right : Disassembly} (same : left.SameButCounts right)
    : left.commentChar = right.commentChar := by
  rw [same.rest]

theorem SameButCounts.trans {left middle right : Disassembly} (first : left.SameButCounts middle)
    (second : middle.SameButCounts right)
    : left.SameButCounts right := by
  refine ⟨first.rest.trans ?_, first.symbols.trans second.symbols⟩
  rw [second.rest]

/-- A disassembly has all that further passes would leave there: its branches are noted in the
symbols, the addresses of its instructions are settled, and the image bears their tags.
-/
structure Prepared (ledger : Ledger) (disassembly : Disassembly) : Prop where
  room : disassembly.image.finish.toNat ≤ 4294967296 - 136
  refines : disassembly.symbols.Refines ledger
  notes : ledger.Notes disassembly.image disassembly.instructions.toList
  settled : ∀ instruction ∈ disassembly.instructions.toList,
    Listing.Settled disassembly.image ledger instruction.address
  tagged : ∀ instruction ∈ disassembly.instructions.toList,
    ∀ tagging ∈ (instruction.reading disassembly.image).taggings, disassembly.image.Bears tagging

/-- Both passes have been made: steps over the instructions lead through the ROM and leave image and
symbols as they are.
-/
structure Finished (ledger : Ledger) (disassembly : Disassembly) : Prop
    extends Prepared ledger disassembly where
  passes : ∃ stop mode,
    Passes Sp0256.table disassembly.romFinish disassembly.origin disassembly.startState
      disassembly.instructions.toList stop ⟨disassembly.image, disassembly.symbols, mode⟩
    ∧ ¬ stop < disassembly.romFinish

namespace Finished

variable {ledger : Ledger} {disassembly : Disassembly}

/-- Steps that were made on other tags and symbols can be made on these. -/
theorem of_passes {stop : BitAddress} {state final : DecoderState}
    (prepared : Prepared ledger disassembly)
    (passes : Passes Sp0256.table disassembly.romFinish disassembly.origin state
      disassembly.instructions.toList stop final)
    (bits : disassembly.image.SameBits state.image)
    (mode : state.mode = Mode.ofAddress disassembly.origin)
    (outside : ¬ stop < disassembly.romFinish)
    : Finished ledger disassembly := by
  have again := passes.replay bits fun instruction member =>
    prepared.notes.known prepared.refines member (prepared.tagged instruction member)
  rw [mode] at again
  exact ⟨prepared, stop, final.mode, again, outside⟩

/-- The first pass changes nothing any more. -/
theorem decodeAll (finished : Finished ledger disassembly)
    : disassembly.decodeAll.outcome = .ok disassembly.instructions.size
      ∧ disassembly.decodeAll.disassembly = disassembly := by
  obtain ⟨stop, mode, passes, outside⟩ := finished.passes
  exact decodeAll_eq_self finished.room passes outside

/-- The second pass prints the names as they are and only counts labels. -/
theorem render (finished : Finished ledger disassembly)
    : disassembly.render.printed
        = ⟨Listing.banner disassembly.commentChar
            ++ Listing.linesOf disassembly.commentChar disassembly.image ledger.namesAt
                disassembly.instructions.toList,
          none⟩
      ∧ disassembly.render.disassembly.symbols.SameButCounts disassembly.symbols
      ∧ ∃ later,
          Finished later disassembly.render.disassembly
          ∧ ∀ instruction ∈ disassembly.instructions.toList,
              later.namesAt instruction.address = ledger.namesAt instruction.address := by
  obtain ⟨error, counted⟩ := Listing.extend_settled finished.refines disassembly.commentChar
    (Listing.banner disassembly.commentChar).toArray #[] finished.settled
  have complete : disassembly.render.printed.error = none := Option.map_eq_none_iff.mpr error
  obtain ⟨refines, settled, lines⟩ := render_ok finished.refines complete
  have names (instruction : Instruction) (member : instruction ∈ disassembly.instructions.toList) :=
    (finished.settled instruction member).namesAt_allRequests disassembly.instructions.toList
  obtain ⟨stop, mode, passes, outside⟩ := finished.passes
  refine ⟨?_, ?_, _, ?_, names⟩
  · rw [← Listing.linesOf_congr _ _ names, ← lines, ← complete]
  · change (Listing.extend ..).symbols.SameButCounts _
    rw [counted]
    exact SymbolTable.run_markDirect_sameButCounts ..
  · have prepared : Prepared _ disassembly.render.disassembly :=
      ⟨finished.room, refines, finished.notes.allRequests _ _, settled, finished.tagged⟩
    exact .of_passes prepared passes (.refl _) rfl outside

/-- A pass leaves a disassembly finished, with the same names at its instructions. -/
theorem perform (finished : Finished ledger disassembly) (pass : Pass)
    : (disassembly.perform pass).SameButCounts disassembly
      ∧ ∃ later,
          Finished later (disassembly.perform pass)
          ∧ ∀ instruction ∈ disassembly.instructions.toList,
              later.namesAt instruction.address = ledger.namesAt instruction.address := by
  cases pass with
  | decoding =>
      have same : disassembly.perform .decoding = disassembly := finished.decodeAll.2
      rw [same]
      exact ⟨.refl _, ledger, finished, fun _ _ => rfl⟩
  | listing =>
      obtain ⟨-, counts, later⟩ := finished.render
      exact ⟨⟨rfl, counts⟩, later⟩

/-- Passes in turn do so, too, by induction on them. -/
theorem performAll (finished : Finished ledger disassembly) (passes : List Pass)
    : (disassembly.performAll passes).SameButCounts disassembly
      ∧ ∃ later,
          Finished later (disassembly.performAll passes)
          ∧ ∀ instruction ∈ disassembly.instructions.toList,
              later.namesAt instruction.address = ledger.namesAt instruction.address := by
  induction passes generalizing ledger disassembly with
  | nil => exact ⟨.refl _, ledger, finished, fun _ _ => rfl⟩
  | cons pass rest ih =>
      obtain ⟨first, middle, finishedFirst, firstNames⟩ := finished.perform pass
      obtain ⟨second, later, finishedLater, laterNames⟩ := ih finishedFirst
      rw [first.instructions] at laterNames
      refine ⟨second.trans first, later, finishedLater, fun instruction member => ?_⟩
      rw [laterNames instruction member, firstNames instruction member]

end Finished

/-- Both passes over a ROM, made with success, finish its disassembly. -/
theorem setup_finished {rom : Bytes} {annotations : Option Annotations} {settings : Settings}
    {disassembly : Disassembly} {count : Nat}
    (accepted : (setup rom annotations settings).outcome = .ok disassembly)
    (room : disassembly.image.finish.toNat ≤ 4294967296 - 136)
    (decoded : disassembly.decodeAll.outcome = .ok count)
    (listed : disassembly.decodeAll.disassembly.render.printed.error = none)
    : let first := disassembly.decodeAll.disassembly
      ∃ ledger,
        Finished ledger first.render.disassembly
        ∧ first.render.printed
          = ⟨Listing.banner first.commentChar
              ++ Listing.linesOf first.commentChar first.image ledger.namesAt
                  first.instructions.toList,
            none⟩
        ∧ count = first.instructions.size := by
  intro first
  obtain ⟨stop, final, passes, outside, image, symbols, counted⟩ := decodeAll_ok decoded
  have limit := disassembly.toNat_romFinish.2
  have notes := passes.notes (by omega) (setup_notes accepted)
  have bits : first.image.SameBits disassembly.image := image ▸ passes.sameBits
  obtain ⟨ledger, refines, noted⟩ := notes.noted
  rw [← symbols] at refines
  obtain ⟨after, settled, lines⟩ := render_ok refines listed
  have finish : first.romFinish = disassembly.romFinish := by
    rw [romFinish, romFinish, bits.origin, bits.sizeBits]
  have origin : first.origin = disassembly.origin := bits.origin
  have roomLeft : first.image.finish.toNat ≤ 4294967296 - 136 := by
    rw [Image.finish, bits.origin, bits.words]
    exact room
  have tagged := passes.bears
  rw [← image] at tagged
  rw [← finish, ← origin] at passes
  have prepared : Prepared _ first.render.disassembly :=
    ⟨roomLeft, after, (noted.of_sameBits bits).allRequests _ _, settled, tagged⟩
  refine ⟨_, .of_passes prepared passes bits (congrArg Mode.ofAddress origin.symm)
    (finish ▸ outside), ?_, counted⟩
  rw [← lines, ← listed]

/-- Once both passes over a ROM have been made with success, passes can be made in any number and
order. After each of them the first pass succeeds again with the same instructions, the second one
prints the same text again, and nothing has changed but how often labels were printed.
-/
theorem passes_repeat_in_any_order {rom : Bytes} {annotations : Option Annotations}
    {settings : Settings} {disassembly : Disassembly} {count : Nat}
    (accepted : (setup rom annotations settings).outcome = .ok disassembly)
    (room : disassembly.image.finish.toNat ≤ 4294967296 - 136)
    (decoded : disassembly.decodeAll.outcome = .ok count)
    (listed : disassembly.decodeAll.disassembly.render.printed.error = none)
    (passes : List Pass)
    : let first := disassembly.decodeAll.disassembly
      let current := first.render.disassembly.performAll passes
      current.decodeAll.outcome = .ok count
      ∧ current.decodeAll.disassembly.instructions = first.instructions
      ∧ current.render.printed = first.render.printed
      ∧ current.SameButCounts first.render.disassembly := by
  intro first current
  obtain ⟨ledger, finished, printed, counted⟩ := setup_finished accepted room decoded listed
  obtain ⟨same, later, finishedLater, names⟩ := finished.performAll passes
  obtain ⟨succeeded, unchanged⟩ := finishedLater.decodeAll
  have instructions : current.instructions = first.instructions := same.instructions
  refine ⟨?_, ?_, ?_, same⟩
  · rw [succeeded, counted]
    exact congrArg (fun kept => Except.ok kept.size) instructions
  · rw [unchanged]
    exact instructions
  · have lines := Listing.linesOf_congr first.commentChar first.image names
    rw [finishedLater.render.1, printed, same.commentChar, same.image, same.instructions]
    exact congrArg (fun lines => Printed.mk (Listing.banner first.commentChar ++ lines) none) lines

/-- A jump to the byte behind it, which has two names: after two more listings and a first pass in
between the text is the same, and the first of the names was printed three times.
-/
theorem passes_repeat_in_any_order_jump
    : ∃ disassembly count,
        (setup #[0x07, 0x02, 0x0F] (some [.symbol "ENTRY" 0x1002, .symbol "AGAIN" 0x1002])
          { origin := some 0x1000 }).outcome = .ok disassembly
        ∧ disassembly.image.finish.toNat ≤ 4294967296 - 136
        ∧ disassembly.decodeAll.outcome = .ok count
        ∧ disassembly.decodeAll.disassembly.render.printed.error = none
        ∧ let first := disassembly.decodeAll.disassembly
          let current := first.render.disassembly.performAll [.listing, .decoding, .listing]
          first.render.disassembly.symbols.entries.map (·.directCount) = [1, 0]
          ∧ current.symbols.entries.map (·.directCount) = [3, 0]
          ∧ current.decodeAll.outcome = .ok count
          ∧ current.render.printed = first.render.printed := by
  obtain ⟨disassembly, accepted, room, decoded, listed, once, thrice⟩
      : ∃ disassembly,
          (setup #[0x07, 0x02, 0x0F] (some [.symbol "ENTRY" 0x1002, .symbol "AGAIN" 0x1002])
            { origin := some 0x1000 }).outcome = .ok disassembly
          ∧ disassembly.image.finish.toNat ≤ 4294967296 - 136
          ∧ disassembly.decodeAll.outcome.toOption = some 2
          ∧ disassembly.decodeAll.disassembly.render.printed.error = none
          ∧ disassembly.decodeAll.disassembly.render.disassembly.symbols.entries.map
              (·.directCount) = [1, 0]
          ∧ (disassembly.decodeAll.disassembly.render.disassembly.performAll
              [.listing, .decoding, .listing]).symbols.entries.map (·.directCount) = [3, 0] :=
    ⟨_, rfl, by decide, by decide +kernel, by decide +kernel, by decide +kernel,
      by decide +kernel⟩
  cases succeeded : disassembly.decodeAll.outcome with
  | error cause =>
      rw [succeeded] at decoded
      cases decoded
  | ok count =>
      obtain ⟨again, -, same, -⟩ :=
        passes_repeat_in_any_order accepted room succeeded listed [.listing, .decoding, .listing]
      exact ⟨disassembly, count, accepted, room, succeeded, listed, once, thrice, again, same⟩

end Disassembly

end SpeechRom
