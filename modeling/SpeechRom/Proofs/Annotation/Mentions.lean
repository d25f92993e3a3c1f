import SpeechRom.Proofs.Annotation.Overlay
import SpeechRom.Proofs.Symbol.Refinement

/-! Symbols of annotations. A table that is filled from annotations holds every name from its first
mention on, later mentions at the same byte change nothing, and the first one at another byte ends
the filling. So does a name for which its byte has no sequence number left.
-/

namespace SpeechRom

namespace Annotations

-----------------------------------------------------------------------------------------
-- Mentions
-----------------------------------------------------------------------------------------

/-- The name and the byte of a symbol. -/
def mention? : Annotation → Option (String × UInt32)
  | .symbol name byte => some (name, byte)
  | _ => none

/-- The symbols of annotations in the order in which they are first mentioned. -/
def firstMentions (annotations : Annotations) : List (String × UInt32) :=
  (annotations.filterMap mention?).eraseDups

/-- Two symbols give one name different bytes. -/
def Contradictory (annotations : Annotations) : Prop :=
  ∃ name first second,
    .symbol name first ∈ annotations ∧ .symbol name second ∈ annotations ∧ first ≠ second

/-- An address is given more names than there are sequence numbers. -/
def Overfull (annotations : Annotations) : Prop :=
  ∃ address,
    UInt32.size < (annotations.firstMentions.filter (BitAddress.ofByte ·.2 = address)).length

/-- Why a symbol cannot be defined after others: an earlier one gives its name another byte, or its
name is new at a byte whose sequence numbers have all been taken.
-/
inductive Refused (before : Annotations) (name : String) (byte : UInt32) : SymbolError → Prop
  | redefined {existing : UInt32} (earlier : .symbol name existing ∈ before)
    (elsewhere : existing ≠ byte)
    : Refused before name byte
        (.redefined name (BitAddress.ofByte existing) (BitAddress.ofByte byte))
  | exhausted (new : ∀ other, .symbol name other ∉ before)
    (full : (before.firstMentions.filter
      (BitAddress.ofByte ·.2 = BitAddress.ofByte byte)).length = UInt32.size)
    : Refused before name byte (.exhausted (BitAddress.ofByte byte))

/-- The error reports the first symbol that cannot be defined. -/
inductive FirstFault (annotations : Annotations) : SymbolError → Prop
  | found {before after : Annotations} {name : String} {byte : UInt32} {error : SymbolError}
    (place : annotations = before ++ .symbol name byte :: after)
    (consistent : ¬ before.Contradictory) (numbered : ¬ before.Overfull)
    (refused : Refused before name byte error)
    : FirstFault annotations error

theorem contradictory_of_split {before after : Annotations} {name : String}
    {existing requested : UInt32} (earlier : .symbol name existing ∈ before)
    (elsewhere : existing ≠ requested)
    : Contradictory (before ++ .symbol name requested :: after) :=
  ⟨name, existing, requested, List.mem_append_left _ earlier,
    List.mem_append_right _ List.mem_cons_self, elsewhere⟩

theorem mem_firstMentions {annotations : Annotations} {name : String} {byte : UInt32}
    : (name, byte) ∈ annotations.firstMentions ↔ .symbol name byte ∈ annotations := by
  rw [firstMentions, List.mem_eraseDups, List.mem_filterMap]
  constructor
  · rintro ⟨hint, member, mentioned⟩
    cases hint with
    | symbol =>
        obtain ⟨rfl, rfl⟩ := Prod.mk.inj (Option.some.inj mentioned)
        exact member
    | code | data | operand | origin => cases mentioned
  · exact fun member => ⟨_, member, rfl⟩

/-- A symbol is a first mention unless it stands among those before it. -/
theorem firstMentions_concat (annotations : Annotations) (name : String) (byte : UInt32)
    : firstMentions (annotations ++ [.symbol name byte])
      = if .symbol name byte ∈ annotations then annotations.firstMentions
        else annotations.firstMentions ++ [(name, byte)] := by
  have mentioned : (annotations.filterMap mention?).contains (name, byte)
      = decide (.symbol name byte ∈ annotations) := by
    rw [List.contains_eq_mem, decide_eq_decide, ← List.mem_eraseDups]
    exact mem_firstMentions
  have single : List.filterMap mention? [.symbol name byte] = [(name, byte)] := rfl
  rw [firstMentions, List.filterMap_append, single, List.eraseDups_append, List.cons_removeAll,
    mentioned]
  by_cases member : .symbol name byte ∈ annotations
  · rw [if_pos member, if_neg (by simp [member])]
    exact List.append_nil _
  · rw [if_neg member, if_pos (by simp [member])]
    rfl

theorem firstMentions_append (before after : Annotations)
    : before.firstMentions <+: (before ++ after).firstMentions := by
  rw [firstMentions, firstMentions, List.filterMap_append, List.eraseDups_append]
  exact List.prefix_append _ _

theorem Contradictory.append {before : Annotations} (contradictory : before.Contradictory)
    (after : Annotations)
    : Contradictory (before ++ after) := by
  obtain ⟨name, first, second, firstMember, secondMember, differ⟩ := contradictory
  exact ⟨name, first, second, List.mem_append_left _ firstMember,
    List.mem_append_left _ secondMember, differ⟩

theorem Overfull.append {before : Annotations} (full : before.Overfull) (after : Annotations)
    : Overfull (before ++ after) := by
  obtain ⟨address, many⟩ := full
  have grows := ((firstMentions_append before after).filter
    (BitAddress.ofByte ·.2 = address)).length_le
  exact ⟨address, Nat.lt_of_lt_of_le many grows⟩

/-- A new name at a byte whose numbers are all taken overfills its address. -/
theorem overfull_of_split {before after : Annotations} {name : String} {byte : UInt32}
    (new : ∀ other, .symbol name other ∉ before)
    (full : (before.firstMentions.filter
      (BitAddress.ofByte ·.2 = BitAddress.ofByte byte)).length = UInt32.size)
    : Overfull (before ++ .symbol name byte :: after) := by
  have more : Overfull (before ++ [.symbol name byte]) := by
    refine ⟨BitAddress.ofByte byte, ?_⟩
    rw [firstMentions_concat, if_neg (new byte), List.filter_append, List.length_append, full]
    simp
  rw [List.append_cons]
  exact more.append after

/-- A symbol that cannot be defined makes a fault with those before it. -/
theorem Refused.faulty {before : Annotations} {name : String} {byte : UInt32} {error : SymbolError}
    (refused : Refused before name byte error) (after : Annotations)
    : Contradictory (before ++ .symbol name byte :: after)
      ∨ Overfull (before ++ .symbol name byte :: after) := by
  cases refused with
  | redefined earlier elsewhere => exact .inl (contradictory_of_split earlier elsewhere)
  | exhausted new full => exact .inr (overfull_of_split new full)

theorem Refused.unique {before : Annotations} {name : String} {byte : UInt32}
    {error other : SymbolError} (consistent : ¬ before.Contradictory)
    (refused : Refused before name byte error) (again : Refused before name byte other)
    : error = other := by
  cases refused with
  | redefined earlier =>
      cases again with
      | redefined earlier' =>
          have same := not_not.mp fun differ => consistent ⟨name, _, _, earlier, earlier', differ⟩
          rw [same]
      | exhausted new => exact absurd earlier (new _)
  | exhausted new =>
      cases again with
      | redefined earlier => exact absurd earlier (new _)
      | exhausted => rfl

theorem FirstFault.faulty {annotations : Annotations} {error : SymbolError}
    (first : FirstFault annotations error)
    : annotations.Contradictory ∨ annotations.Overfull := by
  obtain ⟨rfl, -, -, refused⟩ := first
  exact refused.faulty _

/-- There is one first fault. Witness: what stands before a later one has the fault in it. -/
theorem FirstFault.unique {annotations : Annotations} {error other : SymbolError}
    (first : FirstFault annotations error) (second : FirstFault annotations other)
    : error = other := by
  obtain @⟨before, after, name, byte, error, rfl, consistent, numbered, refused⟩ := first
  obtain @⟨before', after', name', byte', _, place, consistent', numbered', refused'⟩ := second
  -- Neither beginning goes on past the end of the other, where it would meet the fault.
  have same : before = before' := by
    rcases List.append_eq_append_iff.mp place with ⟨between, rfl, rest⟩ | ⟨between, rfl, rest⟩
    · cases between with
      | nil => exact (List.append_nil before).symm
      | cons hint between =>
          obtain ⟨rfl, -⟩ := List.cons.inj rest
          exact absurd (refused.faulty between) (not_or.mpr ⟨consistent', numbered'⟩)
    · cases between with
      | nil => exact List.append_nil before'
      | cons hint between =>
          obtain ⟨rfl, -⟩ := List.cons.inj rest
          exact absurd (refused'.faulty between) (not_or.mpr ⟨consistent, numbered⟩)
  subst same
  obtain ⟨head, -⟩ := List.cons.inj (List.append_cancel_left place)
  obtain ⟨rfl, rfl⟩ := Annotation.symbol.inj head
  exact refused.unique consistent refused'

theorem not_contradictory_nil : ¬ Contradictory [] := by
  rintro ⟨_, _, _, member, -⟩
  cases member

/-- A symbol that agrees with all earlier ones of its name contradicts none. -/
theorem not_contradictory_concat {annotations : Annotations} {hint : Annotation}
    (consistent : ¬ annotations.Contradictory)
    (agree : ∀ name byte other, hint = .symbol name byte → .symbol name other ∈ annotations
      → other = byte)
    : ¬ Contradictory (annotations ++ [hint]) := by
  rintro ⟨name, first, second, firstMember, secondMember, differ⟩
  rw [List.mem_append, List.mem_singleton] at firstMember secondMember
  rcases firstMember with firstMember | firstLast
  · rcases secondMember with secondMember | secondLast
    · exact consistent ⟨name, first, second, firstMember, secondMember, differ⟩
    · exact differ (agree name second first secondLast.symm firstMember)
  · rcases secondMember with secondMember | secondLast
    · exact differ (agree name first second firstLast.symm secondMember).symm
    · obtain ⟨-, same⟩ := Annotation.symbol.inj (firstLast.trans secondLast.symm)
      exact differ same

-----------------------------------------------------------------------------------------
-- Filling a table
-----------------------------------------------------------------------------------------

/-- A ledger after annotations without contradiction: its symbols are their first mentions. -/
structure Fills (annotations : Annotations) (ledger : Ledger) : Prop where
  recorded : ledger.symbols.map (fun symbol => (symbol.name, symbol.address))
    = annotations.firstMentions.map fun mention => (mention.1, BitAddress.ofByte mention.2)
  consistent : ¬ annotations.Contradictory

namespace Fills

variable {annotations : Annotations} {ledger : Ledger} {name : String} {byte : UInt32}

theorem of_empty : Fills [] Ledger.empty := ⟨rfl, not_contradictory_nil⟩

/-- The symbol of a name stands where the annotations have it. -/
theorem mentioned (fills : Fills annotations ledger) {symbol : Symbol}
    (known : ledger.named? name = some symbol)
    : ∃ existing, .symbol name existing ∈ annotations
        ∧ symbol.address = BitAddress.ofByte existing := by
  obtain ⟨member, rfl⟩ := Ledger.named?_eq_some_iff.mp known
  have listed := List.mem_map_of_mem (f := fun symbol => (symbol.name, symbol.address)) member
  rw [fills.recorded] at listed
  obtain ⟨mention, first, same⟩ := List.mem_map.mp listed
  obtain ⟨sameName, sameAddress⟩ := Prod.mk.inj same
  exact ⟨mention.2, mem_firstMentions.mp (sameName ▸ first), sameAddress.symm⟩

/-- A name that the ledger lacks has not been mentioned. -/
theorem unmentioned (fills : Fills annotations ledger) (free : ledger.named? name = none)
    : .symbol name byte ∉ annotations := by
  intro member
  have listed := List.mem_map_of_mem
    (f := fun mention => (mention.1, BitAddress.ofByte mention.2)) (mem_firstMentions.mpr member)
  rw [← fills.recorded] at listed
  obtain ⟨symbol, inside, same⟩ := List.mem_map.mp listed
  exact Ledger.named?_eq_none_iff.mp free symbol inside (congrArg Prod.fst same)

/-- What is no symbol does not count. -/
theorem other (fills : Fills annotations ledger) {hint : Annotation} (plain : mention? hint = none)
    : Fills (annotations ++ [hint]) ledger where
  recorded := by
    rw [fills.recorded, firstMentions, firstMentions, List.filterMap_append,
      List.filterMap_cons_none plain, List.filterMap_nil, List.append_nil]
  consistent := not_contradictory_concat fills.consistent fun name byte _ same => by
    rw [same] at plain
    cases plain

theorem again (fills : Fills annotations ledger) (known : .symbol name byte ∈ annotations)
    : Fills (annotations ++ [.symbol name byte]) ledger where
  recorded := by rw [fills.recorded, firstMentions_concat, if_pos known]
  consistent := not_contradictory_concat fills.consistent fun _ _ other same member => by
    obtain ⟨rfl, rfl⟩ := Annotation.symbol.inj same
    by_contra differ
    exact fills.consistent ⟨_, _, _, member, known, differ⟩

theorem append (fills : Fills annotations ledger) (free : ledger.named? name = none)
    (room : (ledger.aliases (BitAddress.ofByte byte)).length < UInt32.size)
    : Fills (annotations ++ [.symbol name byte])
        (ledger.append name (BitAddress.ofByte byte) free room) where
  recorded := by
    rw [firstMentions_concat, if_neg (fills.unmentioned free), List.map_append, ← fills.recorded]
    exact List.map_append
  consistent := not_contradictory_concat fills.consistent fun _ _ other same member => by
    obtain ⟨rfl, rfl⟩ := Annotation.symbol.inj same
    exact absurd member (fills.unmentioned free)

theorem names (fills : Fills annotations ledger) (address : BitAddress)
    : (ledger.aliases address).map (·.name)
      = (annotations.firstMentions.filter (BitAddress.ofByte ·.2 = address)).map (·.1) := by
  have shared := congrArg (fun keys => (keys.filter (·.2 = address)).map (·.1)) fills.recorded
  simp only [List.filter_map, List.map_map] at shared
  exact shared

theorem length (fills : Fills annotations ledger) (address : BitAddress)
    : (ledger.aliases address).length
      = (annotations.firstMentions.filter (BitAddress.ofByte ·.2 = address)).length := by
  have lengths := congrArg List.length (fills.names address)
  rwa [List.length_map, List.length_map] at lengths

/-- Names at an address are numbered in the order of their first mention. -/
theorem aliases (fills : Fills annotations ledger) (address : BitAddress)
    : (ledger.aliases address).map (fun symbol => (symbol.name, symbol.sequence.toNat))
      = ((annotations.firstMentions.filter (BitAddress.ofByte ·.2 = address)).map
          (·.1)).zipIdx := by
  have numbers : (ledger.aliases address).map (·.sequence.toNat)
      = List.range (ledger.aliases address).length := ledger.numbered address
  rw [← fills.names, List.zipIdx_eq_zip_range', List.length_map, ← List.range_eq_range', ← numbers,
    List.zip_map']

end Fills

/-- Defining one more symbol either keeps the table filled or is refused for the reason that the
earlier symbols give.
-/
theorem define_cases {annotations : Annotations} {table : SymbolTable} {ledger : Ledger}
    (refines : table.Refines ledger) (fills : Fills annotations ledger)
    (addressable : ∀ hint ∈ annotations, hint.Addressable) {name : String} {byte : UInt32}
    (fits : byte ≤ 0xFFFF)
    : (∃ definition filled, table.define name (BitAddress.ofByte byte) = .ok definition
        ∧ definition.table.Refines filled ∧ Fills (annotations ++ [.symbol name byte]) filled)
      ∨ ∃ error, table.define name (BitAddress.ofByte byte) = .error error
        ∧ annotations.Refused name byte error := by
  cases known : ledger.named? name with
  | none =>
      by_cases room : (ledger.aliases (BitAddress.ofByte byte)).length < UInt32.size
      · exact .inl ⟨_, _, refines.define_free known room, refines.add known room,
          fills.append known room⟩
      · have full := Nat.le_antisymm (ledger.length_aliases_le _) (Nat.not_lt.mp room)
        rw [fills.length] at full
        exact .inr ⟨_, (refines.define_new known _).trans (if_neg room),
          .exhausted (fun _ => fills.unmentioned known) full⟩
  | some symbol =>
      obtain ⟨existing, member, place⟩ := fills.mentioned known
      have defined := refines.define_known known (BitAddress.ofByte byte)
      rw [place] at defined
      by_cases same : existing = byte
      · subst same
        exact .inl ⟨_, _, defined.trans (if_pos rfl), refines, fills.again member⟩
      · have apart : BitAddress.ofByte existing ≠ BitAddress.ofByte byte :=
          fun equal => same (BitAddress.ofByte_injective (addressable _ member) fits equal)
        exact .inr ⟨_, defined.trans (if_neg apart), .redefined member same⟩

end Annotations

end SpeechRom
