import SpeechRom.Proofs.Decode.Steps
import SpeechRom.Proofs.Image.Tags

/-! Branch targets stand on byte boundaries, although instructions start at any bit. Targets of
branches are byte addresses, and an instruction after a return or a jump starts behind padding.
-/

namespace SpeechRom

theorem TagSet.meets_of_minus {tags taken wanted : TagSet} (met : (tags \ taken).meets wanted)
    : tags.meets wanted := by
  obtain ⟨tags⟩ := tags
  obtain ⟨taken⟩ := taken
  obtain ⟨wanted⟩ := wanted
  change ((tags &&& ~~~taken) &&& wanted != 0) = true at met
  change (tags &&& wanted != 0) = true
  rw [bne_iff_ne] at met ⊢
  intro apart
  apply met
  rw [UInt8.and_assoc, UInt8.and_comm (~~~taken), ← UInt8.and_assoc, apart, UInt8.zero_and]

/-- A tagging marks no branch target but the first bit of a byte. -/
def Tagging.OnBoundary (tagging : Tagging) : Prop :=
  tagging.tags.meets TagSet.branchTarget → tagging.length = 1 ∧ tagging.start.toNat % 8 = 0

theorem Tagging.onBoundary_of_other (start : BitAddress) (length : UInt32) {tags : TagSet}
    (other : tags.meets TagSet.branchTarget = false)
    : (Tagging.mk start length tags).OnBoundary := by
  intro met
  cases other.symm.trans met

theorem Reading.targetTagging_onBoundary {address : BitAddress} (aligned : address.toNat % 8 = 0)
    : (targetTagging address).OnBoundary :=
  fun _ => ⟨rfl, aligned⟩

/-- A blank image has no tags, and loading adds none. -/
theorem Image.tagsAt_load_create {origin : BitAddress} {sizeBits : UInt32} {image : Image}
    (created : Image.create origin sizeBits = .ok image) (bytes : Bytes) (bit : Nat)
    : (image.load bytes).tagsAt bit = TagSet.empty :=
  Image.tagsAt_create created bit

/-- All branch targets of an image are first bits of bytes. -/
def Image.TargetsAligned (image : Image) : Prop :=
  ∀ bit, (image.tagsAt bit).meets TagSet.branchTarget → bit % 8 = 0

namespace Image.TargetsAligned

theorem addTags {image : Image} (aligned : image.TargetsAligned) {start : BitAddress}
    {length : UInt32} {tags : TagSet} (boundary : (Tagging.mk start length tags).OnBoundary)
    : (image.addTags start length tags).TargetsAligned := by
  intro bit met
  rw [Image.addTags, tagsAt_updateTags] at met
  split at met
  · rename_i range
    rw [TagSet.meets_union, Bool.or_eq_true] at met
    rcases met with old | new
    · exact aligned bit old
    · obtain ⟨one, byte⟩ := boundary (TagSet.meets_of_minus new)
      have width : length.toNat = 1 := congrArg UInt32.toNat one
      obtain ⟨-, above, below⟩ := range
      obtain rfl : bit = start.toNat := by omega
      exact byte
  · exact aligned bit met

theorem applyTaggings {image : Image} (aligned : image.TargetsAligned) {taggings : List Tagging}
    (boundary : ∀ tagging ∈ taggings, tagging.OnBoundary)
    : (applyTaggings image taggings).TargetsAligned := by
  unfold SpeechRom.applyTaggings
  induction taggings generalizing image with
  | nil => exact aligned
  | cons tagging rest ih =>
      obtain ⟨first, later⟩ := List.forall_mem_cons.mp boundary
      exact ih (aligned.addTags first) later

/-- A bit that is asked for as a branch target is the first one of a byte. -/
theorem of_isTagged {image : Image} (aligned : image.TargetsAligned) {address : BitAddress}
    (tagged : image.isTagged address 1 TagSet.branchTarget)
    : address.toNat % 8 = 0 := by
  obtain ⟨bit, above, below, -, met⟩ := (image.isTagged_iff address 1 rfl).mp tagged
  have one : (1 : UInt32).toNat = 1 := rfl
  obtain rfl : bit = address.toNat := by omega
  exact aligned _ met

/-- A blank image has no branch targets, and loading adds none. -/
theorem of_create {origin : BitAddress} {sizeBits : UInt32} {image : Image}
    (created : Image.create origin sizeBits = .ok image) (bytes : Bytes)
    : (image.load bytes).TargetsAligned := by
  intro bit met
  rw [tagsAt_load_create created, TagSet.empty_meets] at met
  cases met

end Image.TargetsAligned

/-- Annotations put branch targets on bytes only, by induction on them. -/
theorem Annotations.tagImage_targetsAligned {image : Image} (aligned : image.TargetsAligned)
    (annotations : Annotations)
    : (annotations.tagImage image).TargetsAligned := by
  unfold tagImage
  induction annotations generalizing image with
  | nil => exact aligned
  | cons annotation rest ih =>
      refine ih ?_
      cases annotation with
      | code | operand => exact aligned.addTags (Tagging.onBoundary_of_other _ _ (by decide))
      | data =>
          exact (aligned.addTags (Tagging.onBoundary_of_other _ _ (by decide))).addTags
            (Tagging.onBoundary_of_other _ _ (by decide))
      | symbol name byte =>
          exact aligned.addTags
            (Reading.targetTagging_onBoundary (BitAddress.ofByte_aligned byte))
      | origin => exact aligned

namespace Reading

/-- Jumps and calls are branches, with the first four bits as part of their target. -/
theorem ofImage_branch_iff {table : FormatTable} {image : Image} {mode : Mode}
    {address target : BitAddress}
    : (ofImage table image mode address).operand = .branch target
      ↔ ((ofImage table image mode address).opcode = 7
          ∨ (ofImage table image mode address).opcode = 11)
        ∧ branchTarget image mode address (FormatTable.nibble (image.readForward address 4))
          = target := by
  rw [ofImage_opcode]
  unfold ofImage
  dsimp only
  split
  · rename_i opcode
    split <;> simp [opcode]
  · rename_i opcode
    simp [opcode]
  · rename_i opcode
    simp [opcode]
  · rename_i opcode
    simp [opcode]
  · rename_i notJump _ notCall
    simp only [reduceCtorEq, false_iff]
    rintro ⟨jump | call, -⟩
    · exact notJump jump
    · exact notCall call

/-- The target of a branch is a byte address. -/
theorem ofImage_branch {table : FormatTable} {image : Image} {mode : Mode}
    {address target : BitAddress}
    (branch : (ofImage table image mode address).operand = .branch target)
    : ∃ byte, target = BitAddress.ofByte byte := by
  obtain ⟨-, rfl⟩ := ofImage_branch_iff.mp branch
  exact ⟨_, rfl⟩

/-- The tags of the first byte: four bits of a value and four bits of the opcode. -/
def byteTaggings (address : BitAddress) : List Tagging :=
  [⟨address, 4, TagSet.operand⟩, ⟨address + (4 : UInt32), 4, TagSet.code⟩]

/-- The tags of code and operands are no tags of branch targets. -/
theorem plain_meets {address : BitAddress} {fields : List PlacedField} {tagging : Tagging}
    (member : tagging ∈ byteTaggings address ++ operandTaggings fields)
    : tagging.tags.meets TagSet.branchTarget = false := by
  have code : TagSet.code.meets TagSet.branchTarget = false := by decide
  have operand : TagSet.operand.meets TagSet.branchTarget = false := by decide
  rcases List.mem_append.mp member with byte | field
  · rcases List.mem_cons.mp byte with rfl | second
    · exact operand
    · obtain rfl := List.mem_singleton.mp second
      exact code
  · obtain ⟨placed, -, rfl⟩ := List.mem_map.mp field
    exact operand

variable (table : FormatTable) (image : Image) (mode : Mode) (address : BitAddress)

theorem readForward_four_lt : (image.readForward address 4).toNat < 16 := by
  have four : image.readForward address 4 = image.window address >>> 28 := rfl
  have top := (image.window address).toNat_lt
  rw [four, UInt32.toNat_shiftRight, Nat.shiftRight_eq_div_pow]
  simp only [UInt32.reduceToNat, Nat.reduceMod, Nat.reducePow]
  omega

/-- The nibble of the first four bits is zero only if they are. -/
theorem nibble_val_eq_zero
    : (FormatTable.nibble (image.readForward address 4)).val = 0
      ↔ image.readForward address 4 = 0 := by
  have small := readForward_four_lt image address
  rw [FormatTable.nibble, Fin.val_ofNat, Nat.mod_eq_of_lt small]
  exact ⟨fun zero => UInt32.toNat.inj zero, fun zero => by rw [zero]; rfl⟩

/-- The addresses that a reading tags as targets, for each of the opcodes. -/
inductive Sites (image : Image) (address next target : BitAddress)
    : Fin 16 → List BitAddress → Prop
  | jump : Sites image address next target 7 [next, target]
  | call : Sites image address next target 11 [target]
  | goBack (zero : image.readForward address 4 = 0) (more : image.readForward next 8 ≠ 0)
    : Sites image address next target 0 [next]
  | goBackLast (last : image.readForward next 8 = 0) : Sites image address next target 0 []
  | setPage (page : image.readForward address 4 ≠ 0) : Sites image address next target 0 []
  | other {opcode : Fin 16} (notReturn : opcode ≠ 0) (notJump : opcode ≠ 7) (notCall : opcode ≠ 11)
    : Sites image address next target opcode []

/-- A reading tags its first byte and the fields that are not the opcode, and then the first bits of
targets.
-/
theorem ofImage_sites
    : ∃ sites,
        (ofImage table image mode address).taggings
          = byteTaggings address
            ++ operandTaggings ((ofImage table image mode address).format.place address)
            ++ sites.map targetTagging
        ∧ Sites image address (address + (ofImage table image mode address).length)
            (branchTarget image mode address (FormatTable.nibble (image.readForward address 4)))
            (ofImage table image mode address).opcode sites := by
  have zero := nibble_val_eq_zero image address
  rw [ofImage_format, ofImage_opcode]
  unfold ofImage
  dsimp only
  split
  · rename_i opcode
    rw [opcode]
    split
    · rename_i first
      dsimp only
      split
      · rename_i last
        exact ⟨[], (List.append_nil _).symm, .goBackLast last⟩
      · rename_i more
        exact ⟨[_], rfl, .goBack (zero.mp first) more⟩
    · rename_i page
      exact ⟨[], (List.append_nil _).symm, .setPage fun both => page (zero.mpr both)⟩
  · rename_i opcode
    rw [opcode]
    exact ⟨[_, _], rfl, .jump⟩
  · rename_i opcode
    rw [opcode]
    exact ⟨[], (List.append_nil _).symm, .other (by decide) (by decide) (by decide)⟩
  · rename_i opcode
    rw [opcode]
    exact ⟨[_], rfl, .call⟩
  · rename_i notReturn notJump _ notCall
    exact ⟨[], (List.append_nil _).symm, .other notReturn notJump notCall⟩

variable {table image mode address}

/-- Targets and what comes after returns and jumps are all that a reading marks. -/
theorem Sites.aligned {next target site : BitAddress} {opcode : Fin 16} {sites : List BitAddress}
    (found : Sites image address next target opcode sites) (inside : site ∈ sites)
    (targetAligned : target.toNat % 8 = 0)
    (nextAligned : opcode = 7 ∨ (opcode = 0 ∧ image.readForward address 4 = 0)
      → next.toNat % 8 = 0)
    : site.toNat % 8 = 0 := by
  cases found with
  | jump =>
      rcases List.mem_cons.mp inside with rfl | inside
      · exact nextAligned (.inl rfl)
      · obtain rfl := List.mem_singleton.mp inside
        exact targetAligned
  | call =>
      obtain rfl := List.mem_singleton.mp inside
      exact targetAligned
  | goBack zero =>
      obtain rfl := List.mem_singleton.mp inside
      exact nextAligned (.inr ⟨rfl, zero⟩)
  | goBackLast | setPage | other => cases inside

/-- Returns and jumps end with the padding of their format. -/
theorem ofImage_next_aligned
    (padded : (ofImage Sp0256.table image mode address).opcode = 7
      ∨ ((ofImage Sp0256.table image mode address).opcode = 0
        ∧ image.readForward address 4 = 0))
    : (address + (ofImage Sp0256.table image mode address).length).toNat % 8 = 0 := by
  rcases ofImage_length Sp0256.table image mode address with ⟨-, first, page⟩ | format
  · rcases padded with jump | ⟨-, zero⟩
    · cases first.symm.trans jump
    · exact absurd ((nibble_val_eq_zero image address).mpr zero) page
  · obtain ⟨front, closed⟩ := Sp0256.table_padded (padded.symm.imp_left And.left)
      (FormatTable.modeOf mode.operandMode)
    rw [format, ofImage_format, closed]
    exact Format.finish_padding_aligned address front

/-- A reading marks first bits of bytes only as branch targets. -/
theorem ofImage_onBoundary {tagging : Tagging}
    (member : tagging ∈ (ofImage Sp0256.table image mode address).taggings)
    : tagging.OnBoundary := by
  obtain ⟨sites, taggings, found⟩ := ofImage_sites Sp0256.table image mode address
  rw [taggings] at member
  rcases List.mem_append.mp member with old | new
  · exact Tagging.onBoundary_of_other _ _ (plain_meets old)
  · obtain ⟨site, inside, rfl⟩ := List.mem_map.mp new
    exact targetTagging_onBoundary
      (found.aligned inside (BitAddress.ofByte_aligned _) ofImage_next_aligned)

end Reading

end SpeechRom
