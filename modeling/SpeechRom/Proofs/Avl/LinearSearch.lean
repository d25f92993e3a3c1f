import SpeechRom.Proofs.Avl.Search
import SpeechRom.Proofs.Avl.Walks

/-! A search that goes down one path finds what a search through all records finds. It turns away
from the records on one side at each node, so the answers that it is given have to ascend along the
records; nothing is asked of the shape of the tree.
-/

namespace SpeechRom.Avl

variable {α : Type}

/-- At most one of the records, as a value, is the one that `locate` looks for. -/
def LocatesOne (locate : α → Ordering) (records : List α) : Prop :=
  ∀ first ∈ records, ∀ second ∈ records, locate first = .eq → locate second = .eq → first = second

namespace Tree

/-- Where the answers ascend along the records, a search finds nothing exactly when there is nothing
to be found.
-/
theorem find?_eq_none_iff {locate : α → Ordering} {tree : Tree α}
    (ascending : Ascending locate tree.toList)
    : tree.find? locate = none ↔ ∀ stored ∈ tree.toList, locate stored ≠ .eq := by
  constructor
  · intro missing
    rw [← record?_remove] at missing
    exact remove_ascending locate tree ascending missing
  · intro different
    cases found : tree.find? locate with
    | none => rfl
    | some record =>
        obtain ⟨member, same⟩ := find?_spec found
        exact absurd same (different record member)

/-- In a sorted tree at most one record equals a probe: the search would find each of them. -/
theorem locatesOne_of_increasing {order : Comparison α} [Std.TransCmp order] {tree : Tree α}
    (increasing : Increasing order tree.toList) (probe : α)
    : LocatesOne (order · probe) tree.toList := by
  intro first firstMember second secondMember firstSame secondSame
  have findsFirst := (find?_eq_some_iff increasing probe first).mpr ⟨firstMember, firstSame⟩
  have findsSecond := (find?_eq_some_iff increasing probe second).mpr ⟨secondMember, secondSame⟩
  exact Option.some.inj (findsFirst.symm.trans findsSecond)

end Tree

namespace Index

variable {index : Index α} {locate : α → Ordering}

theorem searchBy_of_isOrdered (ordered : index.isOrdered) (locate : α → Ordering)
    : index.searchBy locate = found (index.root.find? locate) := by
  obtain ⟨order, installed⟩ := Option.isSome_iff_exists.mp ordered
  rw [searchBy, installed]
  rfl

/-- The search through all records finds the first one in order that is the one looked for. -/
theorem searchLinear_eq (index : Index α) (locate : α → Ordering)
    : index.searchLinear locate
      = found (index.toList.find? fun record => locate record == .eq) := by
  rw [searchLinear, records_eq_toList]

/-- Where the answers ascend, both searches find a record that is stored and the one looked for, or
both find none because none is stored.
-/
theorem searchBy_searchLinear_cases (ordered : index.isOrdered)
    (ascending : Ascending locate index.toList)
    : (∃ one first,
        index.searchBy locate = .ok one ∧ index.searchLinear locate = .ok first
        ∧ one ∈ index.toList ∧ locate one = .eq
        ∧ first ∈ index.toList ∧ locate first = .eq)
      ∨ (index.searchBy locate = .error .notFound ∧ index.searchLinear locate = .error .notFound
        ∧ ∀ stored ∈ index.toList, locate stored ≠ .eq) := by
  rw [searchBy_of_isOrdered ordered, searchLinear_eq]
  have missing := Tree.find?_eq_none_iff ascending
  cases downward : index.root.find? locate with
  | none =>
      have different : ∀ stored ∈ index.toList, locate stored ≠ .eq := missing.mp downward
      have nowhere : index.toList.find? (fun record => locate record == .eq) = none :=
        List.find?_eq_none.mpr (by simpa using different)
      rw [nowhere]
      exact .inr ⟨rfl, rfl, different⟩
  | some one =>
      obtain ⟨member, same⟩ := Tree.find?_spec downward
      cases through : index.toList.find? fun record => locate record == .eq with
      | none => exact absurd (by simpa using same) (List.find?_eq_none.mp through one member)
      | some first =>
          have firstSame : locate first = .eq := by simpa using List.find?_some through
          have firstMember := List.mem_of_find?_eq_some through
          exact .inl ⟨one, first, rfl, rfl, member, same, firstMember, firstSame⟩

/-- With at most one record to find, both searches give it or both give none. -/
theorem searchBy_eq_searchLinear (ordered : index.isOrdered)
    (ascending : Ascending locate index.toList) (single : LocatesOne locate index.toList)
    : index.searchBy locate = index.searchLinear locate := by
  rcases searchBy_searchLinear_cases ordered ascending with
    ⟨one, first, downward, through, member, same, firstMember, firstSame⟩
    | ⟨downward, through, -⟩
  · rw [downward, through, single one member first firstMember same firstSame]
  · rw [downward, through]

/-- In an index with a comparison, a search whose answers ascend along the records finds a stored
record that is the one looked for exactly when the search through all records finds one, and the
same one if there is no other. So looking for a probe in an index that a lawful comparison orders is
the same as comparing it with all records.
-/
theorem searchBy_agrees_with_searchLinear (ordered : index.isOrdered)
    : (∀ locate, Ascending locate index.toList
        → ((∃ one first,
              index.searchBy locate = .ok one ∧ index.searchLinear locate = .ok first
              ∧ one ∈ index.toList ∧ locate one = .eq
              ∧ first ∈ index.toList ∧ locate first = .eq)
            ∨ (index.searchBy locate = .error .notFound
              ∧ index.searchLinear locate = .error .notFound
              ∧ ∀ stored ∈ index.toList, locate stored ≠ .eq))
          ∧ (LocatesOne locate index.toList
            → index.searchBy locate = index.searchLinear locate))
      ∧ ∀ order, Std.TransCmp order → index.order = some order → Increasing order index.toList
        → ∀ probe, index.search probe = index.searchLinear (order · probe) := by
  refine ⟨fun locate ascending => ⟨searchBy_searchLinear_cases ordered ascending,
    searchBy_eq_searchLinear ordered ascending⟩, ?_⟩
  intro order lawful installed increasing probe
  have same : index.search probe = index.searchBy (order · probe) := by
    rw [search, installed, searchBy_of_isOrdered ordered]
  rw [same]
  exact searchBy_eq_searchLinear ordered (increasing.ascending probe)
    (Tree.locatesOne_of_increasing increasing probe)

/-- Letters under numbers, searched by a number alone and by a whole record. -/
theorem searchBy_agrees_with_searchLinear_letters
    : let index := (Index.ordered (compareOn Prod.fst)).run
        [.insert (4, 'd'), .insert (2, 'b'), .insert (7, 'g'), .insert (1, 'a')]
      index.toList = [(1, 'a'), (2, 'b'), (4, 'd'), (7, 'g')]
      ∧ index.searchLinear (fun record : Nat × Char => compare record.1 2) = .ok (2, 'b')
      ∧ index.searchLinear (compareOn Prod.fst · (7, 'x')) = .ok (7, 'g') := by
  intro index
  have records : index.toList = [(1, 'a'), (2, 'b'), (4, 'd'), (7, 'g')] := by decide
  obtain ⟨byKey, byRecord⟩ := @searchBy_agrees_with_searchLinear _ index rfl
  refine ⟨records, ?_, ?_⟩
  · refine ((byKey _ ?_).2 ?_).symm.trans rfl
    · rw [records]
      unfold Ascending
      decide
    · rw [records]
      unfold LocatesOne
      decide
  · refine (byRecord _ inferInstance rfl ?_ (7, 'x')).symm.trans rfl
    rw [records]
    unfold Increasing
    decide

end Index

end SpeechRom.Avl
