import SpeechRom.Proofs.Decode.Targets
import SpeechRom.Proofs.Decode.Tiling
import SpeechRom.Proofs.Symbol.Named

/-! Made labels never contradict each other. They are made for byte boundaries only, by both
passes, so a label can only stand elsewhere when the annotations have put it there.
-/

namespace SpeechRom

/-- An annotation has put the label that is made for one address at another one. -/
def LabelClash (annotations : Annotations) (error : SymbolError) : Prop :=
  ∃ name byte requested,
    error = .redefined name (BitAddress.ofByte byte) requested
    ∧ (name = "L_" ++ Text.hexPadded 4 requested.byte.toNat
      ∨ name = "G_" ++ Text.hexPadded 4 requested.byte.toNat)
    ∧ .symbol name byte ∈ annotations
    ∧ BitAddress.ofByte byte ≠ requested

/-- Without a made label among the names of the annotations there is no clash. -/
theorem not_labelClash {annotations : Annotations}
    (distinct : ∀ name byte, .symbol name byte ∈ annotations
      → ∀ address : BitAddress,
          name ≠ "L_" ++ Text.hexPadded 4 address.byte.toNat
          ∧ name ≠ "G_" ++ Text.hexPadded 4 address.byte.toNat)
    (cause : SymbolError)
    : ¬ LabelClash annotations cause := by
  rintro ⟨name, byte, requested, -, made, member, -⟩
  obtain ⟨notInside, notOutside⟩ := distinct name byte member requested
  rcases made with inside | outside
  · exact notInside inside
  · exact notOutside outside

/-- A table stands for a ledger, and each of its names comes from the annotations or is the made
label of a byte boundary.
-/
structure SymbolTable.Sourced (annotations : Annotations) (table : SymbolTable) : Prop where
  refines : ∃ ledger, table.Refines ledger
  names : ∀ name address, table.Named name address
    → (∃ byte, .symbol name byte ∈ annotations ∧ address = BitAddress.ofByte byte)
      ∨ (address.toNat % 8 = 0 ∧ ∃ letter, name = madeLabel letter address)

namespace SymbolTable.Sourced

variable {annotations : Annotations} {table : SymbolTable}

theorem of_define (sourced : table.Sourced annotations) {name : String} {byte : UInt32}
    (member : .symbol name byte ∈ annotations) {definition : Definition}
    (defined : table.define name (BitAddress.ofByte byte) = .ok definition)
    : definition.table.Sourced annotations := by
  obtain ⟨ledger, refines⟩ := sourced.refines
  refine ⟨⟨_, refines.of_define defined⟩, fun known place named => ?_⟩
  rcases define_ok defined named with old | ⟨rfl, rfl⟩
  · exact sourced.names known place old
  · exact .inl ⟨byte, member, rfl⟩

theorem of_label (sourced : table.Sourced annotations) {address : BitAddress}
    {letter : Option Char} (aligned : letter.isSome → address.toNat % 8 = 0) {sequence : UInt32}
    {labelling : Labelling} (labelled : table.label address letter sequence = .ok labelling)
    : labelling.table.Sourced annotations := by
  obtain ⟨ledger, refines⟩ := sourced.refines
  refine ⟨⟨_, refines.of_label labelled⟩, fun known place named => ?_⟩
  rcases label_ok labelled named with old | ⟨made, rfl, rfl, rfl⟩
  · exact sourced.names known place old
  · exact .inr ⟨aligned rfl, made, rfl⟩

theorem addReference (sourced : table.Sourced annotations) (target source : BitAddress)
    : (table.addReference target source).1.Sourced annotations := by
  obtain ⟨ledger, refines⟩ := sourced.refines
  exact ⟨⟨_, (refines.serve_addReference target source).refines⟩,
    fun known place named => sourced.names known place (addReference_named named)⟩

theorem markDirect (sourced : table.Sourced annotations) (address : BitAddress)
    : (table.markDirect address).1.Sourced annotations := by
  obtain ⟨ledger, refines⟩ := sourced.refines
  exact ⟨⟨_, (refines.serve_markDirect address).refines⟩,
    fun known place named => sourced.names known place (markDirect_named named)⟩

/-- A label that cannot be made clashes with an annotation. -/
theorem label_clash (sourced : table.Sourced annotations) {address : BitAddress}
    {letter : Option Char} (aligned : letter.isSome → address.toNat % 8 = 0)
    (letters : ∀ made, letter = some made → made = 'L' ∨ made = 'G') {sequence : UInt32}
    {error : SymbolError} (refused : table.label address letter sequence = .error error)
    : LabelClash annotations error := by
  obtain ⟨ledger, refines⟩ := sourced.refines
  obtain ⟨made, existing, rfl, named, elsewhere, rfl⟩ := refines.label_error refused
  rcases sourced.names _ existing named with ⟨byte, member, rfl⟩ | ⟨boundary, other, same⟩
  · refine ⟨_, byte, address, rfl, ?_, member, elsewhere⟩
    rcases letters made rfl with rfl | rfl
    · exact .inl rfl
    · exact .inr rfl
  · -- Another made label of that name stands for the same byte, so at the same address.
    have bytes := (madeLabel_injective same).2
    exact absurd (BitAddress.eq_of_byte_eq boundary (aligned rfl) bytes.symm) elsewhere

end SymbolTable.Sourced

/-- Symbols of annotations come from them, by induction on those that are left to define. -/
theorem Annotations.defineSymbols_sourced {annotations rest : Annotations} {table : SymbolTable}
    (sourced : table.Sourced annotations) (members : ∀ annotation ∈ rest, annotation ∈ annotations)
    : (rest.defineSymbols table).table.Sourced annotations := by
  induction rest generalizing table with
  | nil => exact sourced
  | cons annotation rest ih =>
      obtain ⟨member, later⟩ := List.forall_mem_cons.mp members
      cases annotation with
      | symbol name byte =>
          rw [defineSymbols]
          cases defined : table.define name (BitAddress.ofByte byte) with
          | error => exact sourced
          | ok definition => exact ih (sourced.of_define member defined) later
      | code | data | operand | origin => exact ih sourced later

/-- What both passes rely on: branch targets on byte boundaries, and names that come from the
annotations or were made for byte boundaries.
-/
structure DecoderState.Labelled (annotations : Annotations) (state : DecoderState) : Prop where
  targets : state.image.TargetsAligned
  names : state.symbols.Sourced annotations

theorem decode_labelled {annotations : Annotations} {state : DecoderState}
    (labelled : state.Labelled annotations) (address : BitAddress)
    : (decode Sp0256.table address state).state.Labelled annotations := by
  let reading := Reading.ofImage Sp0256.table state.image state.mode address
  have targets : (reading.taggedImage state.image).TargetsAligned :=
    labelled.targets.applyTaggings fun _ => Reading.ofImage_onBoundary
  rcases decode_cases Sp0256.table address state with
    ⟨target, error, -, -, step⟩ | ⟨target, labelling, branch, named, step⟩ | ⟨-, step⟩
  · rw [step]
    exact ⟨targets, labelled.names⟩
  · rw [step]
    obtain ⟨byte, rfl⟩ := Reading.ofImage_branch branch
    have names := labelled.names.of_label (fun _ => BitAddress.ofByte_aligned byte) named
    exact ⟨targets, names.addReference _ address⟩
  · rw [step]
    exact ⟨targets, labelled.names⟩

/-- A step fails only by a clash with an annotation: no instruction is shorter than a byte. -/
theorem decode_clash {annotations : Annotations} {state : DecoderState}
    (labelled : state.Labelled annotations) {address : BitAddress} {error : DecodeError}
    (failed : (decode Sp0256.table address state).outcome = .error error)
    : ∃ cause, error = .symbol cause ∧ LabelClash annotations cause := by
  rcases decode_error failed with ⟨target, cause, branch, refused, rfl⟩ | ⟨-, short⟩
  · obtain ⟨byte, rfl⟩ := Reading.ofImage_branch branch
    refine ⟨cause, rfl, labelled.names.label_clash
      (fun _ => BitAddress.ofByte_aligned byte) (fun made chosen => ?_) refused⟩
    rw [← Option.some.inj chosen, labelLetter]
    split
    · exact .inl rfl
    · exact .inr rfl
  · have long := (Reading.ofImage_sp0256_length state.image state.mode address).1
    have short : _ < 8 := UInt32.lt_iff_toNat_lt.mp short
    omega

namespace Listing

/-- The listing asks for a label only where the bit of the instruction is a branch target. -/
theorem letter_aligned {image : Image} (targets : image.TargetsAligned) {address : BitAddress}
    (asked : (if image.isTagged address 1 TagSet.branchTarget then some 'L' else none).isSome)
    : address.toNat % 8 = 0 := by
  split at asked
  · rename_i tagged
    exact targets.of_isTagged tagged
  · cases asked

theorem block_sourced {annotations : Annotations} {image : Image}
    (targets : image.TargetsAligned) {symbols : SymbolTable} (names : symbols.Sourced annotations)
    {commentChar : Char} {instruction : Instruction} {next : Block}
    (listed : block commentChar image symbols instruction = .ok next)
    : next.symbols.Sourced annotations := by
  unfold block at listed
  dsimp only at listed
  split at listed
  · cases listed
  · rename_i labelled
    obtain rfl := Except.ok.inj listed
    exact names.of_label (letter_aligned targets) labelled
  · rename_i labelled
    obtain rfl := Except.ok.inj listed
    exact (names.of_label (letter_aligned targets) labelled).markDirect _

theorem block_clash {annotations : Annotations} {image : Image}
    (targets : image.TargetsAligned) {symbols : SymbolTable} (names : symbols.Sourced annotations)
    {commentChar : Char} {instruction : Instruction} {error : SymbolError}
    (refused : block commentChar image symbols instruction = .error error)
    : LabelClash annotations error := by
  unfold block at refused
  dsimp only at refused
  split at refused
  · rename_i unlabelled
    obtain rfl := Except.error.inj refused
    refine names.label_clash (letter_aligned targets) (fun made chosen => ?_) unlabelled
    split at chosen
    · exact .inl (Option.some.inj chosen).symm
    · cases chosen
  · cases refused
  · cases refused

/-- The listing ends early only by a clash with an annotation, by induction on the instructions
that are left to list.
-/
theorem extend_clash {annotations : Annotations} {image : Image}
    (targets : image.TargetsAligned) {symbols : SymbolTable} (names : symbols.Sourced annotations)
    {commentChar : Char} {lines : Array String} {added : Array Symbol}
    {instructions : List Instruction} {error : SymbolError}
    (ended : (extend commentChar image lines symbols added instructions).error = some error)
    : LabelClash annotations error := by
  induction instructions generalizing lines symbols added with
  | nil => cases ended
  | cons instruction rest ih =>
      rw [extend] at ended
      cases listed : block commentChar image symbols instruction with
      | error cause =>
          rw [listed] at ended
          obtain rfl : cause = error := Option.some.inj ended
          exact block_clash targets names listed
      | ok next =>
          rw [listed] at ended
          exact ih (block_sourced targets names listed) ended

end Listing

namespace Disassembly

/-- A disassembly that could be set up has its branch targets and its names from the annotations. -/
theorem setup_labelled {rom : Bytes} {annotations : Option Annotations} {settings : Settings}
    {disassembly : Disassembly}
    (accepted : (setup rom annotations settings).outcome = .ok disassembly)
    : disassembly.startState.Labelled (annotations.getD []) := by
  obtain ⟨image, made, tagged, defined⟩ := setup_ok accepted
  obtain ⟨-, blank, created, rfl⟩ := imageOf_ok made
  refine ⟨?_, ?_⟩
  · change disassembly.image.TargetsAligned
    rw [tagged]
    exact Annotations.tagImage_targetsAligned (.of_create created rom) _
  · change disassembly.symbols.Sourced _
    rw [defined]
    refine Annotations.defineSymbols_sourced ⟨⟨_, .of_empty settings.commentChar⟩, ?_⟩
      fun _ member => member
    rintro name address ⟨symbol, member, -⟩
    cases member

/-- The first pass fails only by a clash with an annotation, and whether it fails or not, it leaves
branch targets and names as the listing needs them.
-/
theorem decodeAll_clash {annotations : Annotations} {disassembly : Disassembly}
    (labelled : disassembly.startState.Labelled annotations)
    (room : disassembly.image.finish.toNat ≤ 4294967296 - 136)
    : let decoding := disassembly.decodeAll
      decoding.disassembly.image.TargetsAligned
      ∧ decoding.disassembly.symbols.Sourced annotations
      ∧ ∀ error, decoding.outcome = .error error
        → ∃ cause, error = .symbol cause ∧ LabelClash annotations cause := by
  intro decoding
  obtain ⟨stop, final, passes, ends⟩ := disassembly.decodeAll_ends room
  have reached : final.Labelled annotations :=
    passes.preserves (fun address _ held => decode_labelled held address) labelled
  rcases ends with ⟨-, succeeded, image, symbols⟩ | ⟨cause, -, failed, outcome, image, symbols⟩
  · refine ⟨image ▸ reached.targets, symbols ▸ reached.names, ?_⟩
    intro error failed
    cases succeeded.symm.trans failed
  · have after := decode_labelled reached stop
    refine ⟨image ▸ after.targets, symbols ▸ after.names, ?_⟩
    intro error same
    obtain rfl := Except.error.inj (failed.symm.trans same)
    exact decode_clash reached outcome

/-- Without annotations there is no name to clash with, so the first pass succeeds. -/
theorem decodeAll_succeeds {rom : Bytes} {settings : Settings} {disassembly : Disassembly}
    (accepted : (setup rom none settings).outcome = .ok disassembly)
    (room : disassembly.image.finish.toNat ≤ 4294967296 - 136)
    : ∃ count, disassembly.decodeAll.outcome = .ok count := by
  obtain ⟨-, -, clashes⟩ := decodeAll_clash (setup_labelled accepted) room
  cases outcome : disassembly.decodeAll.outcome with
  | ok count => exact ⟨count, rfl⟩
  | error error =>
      obtain ⟨cause, -, clash⟩ := clashes error outcome
      exact absurd clash (not_labelClash (fun _ _ member => absurd member List.not_mem_nil) cause)

/-- Both passes over a ROM fail only by a label that an annotation has put elsewhere: the error
names the label made for one address, and the annotations have a symbol of that name at another.
Where no annotation has such a name, both passes succeed.
-/
theorem passes_fail_only_by_labelClash {rom : Bytes} {annotations : Option Annotations}
    {settings : Settings} {disassembly : Disassembly}
    (accepted : (setup rom annotations settings).outcome = .ok disassembly)
    (room : disassembly.image.finish.toNat ≤ 4294967296 - 136)
    : let hints := annotations.getD []
      let decoding := disassembly.decodeAll
      let printed := decoding.disassembly.render.printed
      (∀ error, decoding.outcome = .error error
        → ∃ cause, error = .symbol cause ∧ LabelClash hints cause)
      ∧ (∀ error, printed.error = some error
        → ∃ cause, error = .symbol cause ∧ LabelClash hints cause)
      ∧ ((∀ name byte, .symbol name byte ∈ hints
          → ∀ address : BitAddress,
              name ≠ "L_" ++ Text.hexPadded 4 address.byte.toNat
              ∧ name ≠ "G_" ++ Text.hexPadded 4 address.byte.toNat)
        → (∃ count, decoding.outcome = .ok count) ∧ printed.error = none) := by
  intro hints decoding printed
  obtain ⟨targets, names, decodes⟩ := decodeAll_clash (setup_labelled accepted) room
  have prints (error : DecodeError) (failed : printed.error = some error)
      : ∃ cause, error = .symbol cause ∧ LabelClash hints cause := by
    obtain ⟨cause, ended, rfl⟩ := Option.map_eq_some_iff.mp failed
    exact ⟨cause, rfl, Listing.extend_clash targets names ended⟩
  refine ⟨decodes, prints, ?_⟩
  intro distinct
  constructor
  · cases outcome : decoding.outcome with
    | ok count => exact ⟨count, rfl⟩
    | error error =>
        obtain ⟨cause, -, clash⟩ := decodes error outcome
        exact absurd clash (not_labelClash distinct cause)
  · cases outcome : printed.error with
    | none => rfl
    | some error =>
        obtain ⟨cause, -, clash⟩ := prints error outcome
        exact absurd clash (not_labelClash distinct cause)

/-- A jump to byte `$1004` fails where an annotation has put the label of that byte at `$1001`, and
succeeds where the annotation has another name.
-/
theorem passes_fail_only_by_labelClash_jump
    : (∃ disassembly,
        (setup #[0x07, 0x04, 0x08, 0x0F] (some [.symbol "G_1004" 0x1001])
          { origin := some 0x1000 }).outcome = .ok disassembly
        ∧ disassembly.image.finish.toNat ≤ 4294967296 - 136
        ∧ ∃ cause,
            disassembly.decodeAll.outcome = .error (.symbol cause)
            ∧ LabelClash [.symbol "G_1004" 0x1001] cause)
      ∧ (∃ disassembly,
        (setup #[0x07, 0x04, 0x08, 0x0F] (some [.symbol "ENTRY" 0x1001])
          { origin := some 0x1000 }).outcome = .ok disassembly
        ∧ disassembly.image.finish.toNat ≤ 4294967296 - 136
        ∧ (∃ count, disassembly.decodeAll.outcome = .ok count)
        ∧ disassembly.decodeAll.disassembly.render.printed.error = none) := by
  constructor
  · obtain ⟨disassembly, accepted, room, failed⟩
        : ∃ disassembly,
            (setup #[0x07, 0x04, 0x08, 0x0F] (some [.symbol "G_1004" 0x1001])
              { origin := some 0x1000 }).outcome = .ok disassembly
            ∧ disassembly.image.finish.toNat ≤ 4294967296 - 136
            ∧ disassembly.decodeAll.outcome.toOption = none :=
      ⟨_, rfl, by decide, by decide +kernel⟩
    refine ⟨disassembly, accepted, room, ?_⟩
    cases outcome : disassembly.decodeAll.outcome with
    | ok count =>
        rw [outcome] at failed
        cases failed
    | error error =>
        obtain ⟨cause, rfl, clash⟩ :=
          (passes_fail_only_by_labelClash accepted room).1 error outcome
        exact ⟨cause, rfl, clash⟩
  · obtain ⟨disassembly, accepted, room⟩
        : ∃ disassembly,
            (setup #[0x07, 0x04, 0x08, 0x0F] (some [.symbol "ENTRY" 0x1001])
              { origin := some 0x1000 }).outcome = .ok disassembly
            ∧ disassembly.image.finish.toNat ≤ 4294967296 - 136 :=
      ⟨_, rfl, by decide⟩
    refine ⟨disassembly, accepted, room,
      (passes_fail_only_by_labelClash accepted room).2.2 fun name byte member address => ?_⟩
    obtain ⟨rfl, -⟩ := Annotation.symbol.inj (List.mem_singleton.mp member)
    constructor
    · intro same
      have first := congrArg (fun text => text.toList.head?) same
      simp at first
    · intro same
      have first := congrArg (fun text => text.toList.head?) same
      simp at first

end Disassembly

end SpeechRom
