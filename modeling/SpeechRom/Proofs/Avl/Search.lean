import SpeechRom.Proofs.Avl.Sorted

/-! Records of a sorted tree one at a time. An insertion is refused exactly when an equal record is
there, a search finds a record exactly when one is there, and a change reaches the record that the
search finds and no other.
-/

namespace SpeechRom.Avl

variable {α : Type}

namespace Tree

/-- A sorted tree refuses a record exactly when it has an equal one. -/
theorem insert_refused_iff {order : Comparison α} [Std.TransCmp order] {tree : Tree α}
    (increasing : Increasing order tree.toList) (new : α)
    : (tree.insert order new).grew = none ↔ ∃ stored ∈ tree.toList, order new stored = .eq := by
  rcases insert_increasing order new tree increasing with
    ⟨refused, equal⟩ | ⟨accepted, before, after, old, -, low, high⟩
  · exact ⟨fun _ => equal, fun _ => refused⟩
  · refine ⟨fun refused => absurd refused accepted, ?_⟩
    rintro ⟨stored, member, same⟩
    rw [old] at member
    rcases List.mem_append.mp member with member | member
    · cases (Std.OrientedCmp.gt_of_lt (low stored member)).symm.trans same
    · cases (high stored member).symm.trans same

/-- A record that equals none is added to the others, and the tree stays sorted. -/
theorem insert_new {order : Comparison α} [Std.TransCmp order] {tree : Tree α}
    (increasing : Increasing order tree.toList) {new : α}
    (different : ¬ ∃ stored ∈ tree.toList, order new stored = .eq)
    : (tree.insert order new).tree.toList.Perm (new :: tree.toList)
      ∧ Increasing order (tree.insert order new).tree.toList := by
  rcases insert_increasing order new tree increasing with
    ⟨-, equal⟩ | ⟨-, before, after, old, inserted, low, high⟩
  · exact absurd equal different
  · rw [inserted, old]
    exact ⟨List.perm_middle, SortedList.increasing_between (old ▸ increasing) low high⟩

/-- A removal takes out what a search finds. -/
theorem record?_remove (locate : α → Ordering) (tree : Tree α)
    : (tree.remove locate).record? = tree.find? locate := by
  induction tree with
  | leaf => rfl
  | node balance left record right ihLeft ihRight =>
      rw [remove, find?]
      cases locate record with
      | eq => exact (unlink_spec balance left record right).1
      | gt => rw [Removal.record?_throughLeft, ihLeft]
      | lt => rw [Removal.record?_throughRight, ihRight]

/-- In a sorted tree a search finds the one record that equals the probe, if there is one. -/
theorem find?_eq_some_iff {order : Comparison α} [Std.TransCmp order] {tree : Tree α}
    (increasing : Increasing order tree.toList) (probe record : α)
    : tree.find? (order · probe) = some record
      ↔ record ∈ tree.toList ∧ order record probe = .eq := by
  refine ⟨find?_spec, ?_⟩
  rintro ⟨member, same⟩
  cases found : tree.find? (order · probe) with
  | none =>
      have missing : (tree.remove (order · probe)).record? = none := by rw [record?_remove, found]
      exact absurd same
        (remove_ascending _ tree (increasing.ascending probe) missing record member)
  | some other =>
      obtain ⟨otherMember, otherSame⟩ := find?_spec found
      obtain ⟨before, after, split⟩ := List.append_of_mem member
      have first := (SortedList.eq_split (split ▸ increasing) same).1
      obtain ⟨front, back, otherSplit⟩ := List.append_of_mem otherMember
      have second := (SortedList.eq_split (otherSplit ▸ increasing) otherSame).1
      rw [← split] at first
      rw [← otherSplit] at second
      exact second.symm.trans first

/-- A change reaches the record that the search finds, in its place. -/
theorem toList_modify {locate : α → Ordering} {tree : Tree α} {record : α}
    (found : tree.find? locate = some record) (change : α → α)
    : ∃ before after,
        tree.toList = before ++ record :: after
        ∧ (tree.modify locate change).toList = before ++ change record :: after := by
  induction tree with
  | leaf => cases found
  | node balance left stored right ihLeft ihRight =>
      rw [find?] at found
      rw [modify]
      cases located : locate stored with
      | eq =>
          rw [located] at found
          obtain rfl : stored = record := Option.some.inj found
          exact ⟨left.toList, right.toList, rfl, rfl⟩
      | gt =>
          rw [located] at found
          obtain ⟨before, after, old, new⟩ := ihLeft found
          refine ⟨before, after ++ stored :: right.toList, ?_, ?_⟩
          · simp only [toList_node, old, List.append_assoc, List.cons_append]
          · simp only [toList_node, new, List.append_assoc, List.cons_append]
      | lt =>
          rw [located] at found
          obtain ⟨before, after, old, new⟩ := ihRight found
          refine ⟨left.toList ++ stored :: before, after, ?_, ?_⟩
          · simp only [toList_node, old, List.append_assoc, List.cons_append]
          · simp only [toList_node, new, List.append_assoc, List.cons_append]

end Tree

end SpeechRom.Avl
