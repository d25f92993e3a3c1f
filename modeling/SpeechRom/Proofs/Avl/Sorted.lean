import Mathlib.Data.List.Sort
import SpeechRom.Proofs.Avl.Runs

/-! An index with a lawful comparison is a sorted list. The comparison is asked for a new record
against a stored one on insertion and the other way round on removal; both lead to the same place.
-/

namespace SpeechRom.Avl

variable {α : Type}

/-- Every record of the list compares less than all later ones. -/
def Increasing (order : Comparison α) (records : List α) : Prop :=
  records.Pairwise (order · · = .lt)

/-- Along the list a search is first told to go right, then that it is there, then to go left. -/
def Ascending (locate : α → Ordering) (records : List α) : Prop :=
  records.Pairwise fun earlier later =>
    (locate later = .lt → locate earlier = .lt) ∧ (locate earlier = .gt → locate later = .gt)

/-- Locating a probe by a lawful comparison ascends along an increasing list. -/
theorem Increasing.ascending {order : Comparison α} [Std.TransCmp order] {records : List α}
    (increasing : Increasing order records) (probe : α)
    : Ascending (order · probe) records := by
  refine List.Pairwise.imp ?_ increasing
  intro earlier later before
  refine ⟨fun below => Std.TransCmp.lt_trans before below, fun above => ?_⟩
  have probeFirst : order probe earlier = .lt := Std.OrientedCmp.lt_of_gt above
  exact Std.OrientedCmp.gt_of_lt (Std.TransCmp.lt_trans probeFirst before)

namespace Tree

/-- Insertion into a sorted tree refuses a record that equals a stored one, and else puts the
record after all smaller and before all greater ones. Witness: what lies on the far side of a node
on the way compares to the new record as the node does, by transitivity.
-/
theorem insert_increasing (order : Comparison α) [Std.TransCmp order] (new : α) (tree : Tree α)
    (increasing : Increasing order tree.toList)
    : ((tree.insert order new).grew = none ∧ ∃ stored ∈ tree.toList, order new stored = .eq)
      ∨ ((tree.insert order new).grew ≠ none
        ∧ ∃ before after,
            tree.toList = before ++ after
            ∧ (tree.insert order new).tree.toList = before ++ new :: after
            ∧ (∀ stored ∈ before, order stored new = .lt)
            ∧ ∀ stored ∈ after, order new stored = .lt) := by
  induction tree with
  | leaf => exact .inr ⟨by simp [insert], [], [], rfl, rfl, by simp, by simp⟩
  | node balance left record right ihLeft ihRight =>
      obtain ⟨leftIncreasing, rightIncreasing, across⟩ := List.pairwise_append.mp increasing
      obtain ⟨aboveRecord, rightIncreasing⟩ := List.pairwise_cons.mp rightIncreasing
      have belowRecord : ∀ stored ∈ left.toList, order stored record = .lt :=
        fun stored member => across stored member record (by simp)
      cases compared : order new record with
      | eq => exact .inl ⟨by simp [insert, compared], record, by simp, compared⟩
      | lt =>
          rcases ihLeft leftIncreasing with
            ⟨refused, stored, member, same⟩ | ⟨accepted, before, after, old, inserted, low, high⟩
          · refine .inl ⟨by simpa [insert, compared] using refused, stored, ?_, same⟩
            simp [member]
          · refine .inr ⟨by simpa [insert, compared] using accepted, before,
              after ++ record :: right.toList, ?_, ?_, low, ?_⟩
            · simp only [toList_node, old, List.append_assoc]
            · simp only [insert, compared, Insertion.toList_throughLeft, inserted,
                List.append_assoc, List.cons_append]
            · intro stored member
              rcases List.mem_append.mp member with member | member
              · exact high stored member
              rcases List.mem_cons.mp member with rfl | member
              · exact compared
              · exact Std.TransCmp.lt_trans compared (aboveRecord stored member)
      | gt =>
          have recordFirst : order record new = .lt := Std.OrientedCmp.lt_of_gt compared
          rcases ihRight rightIncreasing with
            ⟨refused, stored, member, same⟩ | ⟨accepted, before, after, old, inserted, low, high⟩
          · refine .inl ⟨by simpa [insert, compared] using refused, stored, ?_, same⟩
            simp [member]
          · refine .inr ⟨by simpa [insert, compared] using accepted,
              left.toList ++ record :: before, after, ?_, ?_, ?_, high⟩
            · simp only [toList_node, old, List.append_assoc, List.cons_append]
            · simp only [insert, compared, Insertion.toList_throughRight, inserted,
                List.append_assoc, List.cons_append]
            · intro stored member
              rcases List.mem_append.mp member with member | member
              · exact Std.TransCmp.lt_trans (belowRecord stored member) recordFirst
              rcases List.mem_cons.mp member with rfl | member
              · exact recordFirst
              · exact low stored member

/-- Where the answers ascend along the records, a search misses no record that it is told is the
one. Witness: told to go left at a node, it is told so at all records on the right as well.
-/
theorem remove_ascending (locate : α → Ordering) (tree : Tree α)
    (ascending : Ascending locate tree.toList) (missing : (tree.remove locate).record? = none)
    : ∀ stored ∈ tree.toList, locate stored ≠ .eq := by
  induction tree with
  | leaf => simp
  | node balance left record right ihLeft ihRight =>
      obtain ⟨leftAscending, rightAscending, across⟩ := List.pairwise_append.mp ascending
      obtain ⟨afterRecord, rightAscending⟩ := List.pairwise_cons.mp rightAscending
      intro stored member
      cases located : locate record with
      | eq => simp [remove, located, unlink_spec] at missing
      | gt =>
          simp only [remove, located, Removal.record?_throughLeft] at missing
          rcases List.mem_append.mp member with member | member
          · exact ihLeft leftAscending missing stored member
          rcases List.mem_cons.mp member with rfl | member
          · simp [located]
          · simp [(afterRecord stored member).2 located]
      | lt =>
          simp only [remove, located, Removal.record?_throughRight] at missing
          rcases List.mem_append.mp member with member | member
          · simp [(across stored member record (by simp)).1 located]
          rcases List.mem_cons.mp member with rfl | member
          · simp [located]
          · exact ihRight rightAscending missing stored member

end Tree

namespace SortedList

/-- A change to a plain list in increasing order, with its answer. -/
def apply (order : Comparison α) (records : List α)
    : Change α → List α × Except IndexError (Option α)
  | .insert record =>
    if ∃ stored ∈ records, order record stored = .eq then (records, .error .duplicateKey)
    else (records.orderedInsert (order · · = .lt) record, .ok none)
  | .delete probe =>
    match records.find? (order · probe = .eq) with
    | none => (records, .error .notFound)
    | some _ => (records.eraseP (order · probe = .eq), .ok none)
  | .detach probe =>
    match records.find? (order · probe = .eq) with
    | none => (records, .error .notFound)
    | some stored => (records.eraseP (order · probe = .eq), .ok (some stored))
  | .clear => ([], .ok none)

/-- The list after changes in turn, from the empty list on. -/
def run (order : Comparison α) (changes : List (Change α)) : List α :=
  changes.foldl (fun records change => (apply order records change).1) []

/-- A record between all smaller and all greater ones is where ordered insertion puts it. -/
theorem orderedInsert_between {order : Comparison α} [Std.TransCmp order] {before after : List α}
    {record : α} (low : ∀ stored ∈ before, order stored record = .lt)
    (high : ∀ stored ∈ after, order record stored = .lt)
    : (before ++ after).orderedInsert (order · · = .lt) record = before ++ record :: after := by
  induction before with
  | nil =>
      cases after with
      | nil => rfl
      | cons first rest => exact List.orderedInsert_cons_of_le _ _ (high first (by simp))
  | cons first rest ih =>
      have notBelow : order record first ≠ .lt :=
        Std.OrientedCmp.not_lt_of_lt (low first (by simp))
      rw [List.cons_append, List.orderedInsert_cons, if_neg notBelow,
        ih fun stored member => low stored (List.mem_cons_of_mem first member)]
      rfl

theorem increasing_between {order : Comparison α} {before after : List α} {record : α}
    (increasing : Increasing order (before ++ after))
    (low : ∀ stored ∈ before, order stored record = .lt)
    (high : ∀ stored ∈ after, order record stored = .lt)
    : Increasing order (before ++ record :: after) := by
  obtain ⟨beforeIncreasing, afterIncreasing, across⟩ := List.pairwise_append.mp increasing
  refine List.pairwise_append.mpr
    ⟨beforeIncreasing, List.pairwise_cons.mpr ⟨high, afterIncreasing⟩, ?_⟩
  intro earlier earlierMember later laterMember
  rcases List.mem_cons.mp laterMember with rfl | laterMember
  · exact low earlier earlierMember
  · exact across earlier earlierMember later laterMember

/-- In an increasing list at most one record equals a probe: those before it are smaller. -/
theorem eq_split {order : Comparison α} [Std.TransCmp order] {before after : List α}
    {record probe : α} (increasing : Increasing order (before ++ record :: after))
    (same : order record probe = .eq)
    : (before ++ record :: after).find? (order · probe = .eq) = some record
      ∧ (before ++ record :: after).eraseP (order · probe = .eq) = before ++ after := by
  obtain ⟨-, -, across⟩ := List.pairwise_append.mp increasing
  have smaller : ∀ stored ∈ before, ¬ order stored probe = .eq := by
    intro stored member equal
    have less : order stored probe = .lt :=
      Std.TransCmp.lt_of_lt_of_eq (across stored member record (by simp)) same
    rw [less] at equal
    cases equal
  constructor
  · rw [List.find?_append, List.find?_eq_none.mpr (by simpa using smaller)]
    simp [same]
  · rw [List.eraseP_append_right _ (by simpa using smaller)]
    simp [same]

end SortedList

namespace Index

/-- An index stands for a list: it is ordered by the comparison, and in order its records are the
entries of the list, which increase and are counted.
-/
structure Refines (index : Index α) (order : Comparison α) (records : List α) : Prop where
  ordered : index.order = some order
  view : index.root.toList = records
  increasing : Increasing order records
  counted : index.size = records.length

/-- An insertion answers and acts as on the list. -/
theorem Refines.insert {index : Index α} {order : Comparison α} [Std.TransCmp order]
    {records : List α} (refines : index.Refines order records) (record : α)
    : (index.apply (.insert record)).1.Refines order
        (SortedList.apply order records (.insert record)).1
      ∧ (index.apply (.insert record)).2 = (SortedList.apply order records (.insert record)).2 := by
  obtain ⟨ordered, rfl, increasing, counted⟩ := refines
  have placed := Tree.insert_increasing order record index.root increasing
  rcases index.tryInsert_cases record with
    ⟨unordered, -⟩ | ⟨used, usedOrder, refused, ended⟩ | ⟨used, usedOrder, accepted, ended⟩
  · simp [ordered] at unordered
  · obtain rfl : order = used := Option.some.inj (ordered.symm.trans usedOrder)
    rcases placed with ⟨-, equal⟩ | ⟨accepted, -⟩
    · simp only [apply, ended, SortedList.apply, if_pos equal]
      exact ⟨⟨ordered, rfl, increasing, counted⟩, rfl⟩
    · exact absurd refused accepted
  · obtain rfl : order = used := Option.some.inj (ordered.symm.trans usedOrder)
    rcases placed with ⟨refused, -⟩ | ⟨-, before, after, old, new, low, high⟩
    · exact absurd refused accepted
    have different : ¬ ∃ stored ∈ index.root.toList, order record stored = .eq := by
      rintro ⟨stored, member, equal⟩
      rw [old] at member
      rcases List.mem_append.mp member with member | member
      · have less := Std.OrientedCmp.gt_of_lt (low stored member)
        rw [less] at equal
        cases equal
      · rw [high stored member] at equal
        cases equal
    have inserted := SortedList.orderedInsert_between low high
    rw [← old] at inserted
    simp only [apply, ended, SortedList.apply, if_neg different]
    refine ⟨⟨ordered, ?_, ?_, ?_⟩, rfl⟩
    · rw [new, inserted]
    · rw [inserted]
      exact SortedList.increasing_between (old ▸ increasing) low high
    · rw [List.orderedInsert_length, counted]

theorem Refines.tryDetach {index : Index α} {order : Comparison α} [Std.TransCmp order]
    {records : List α} (refines : index.Refines order records) (probe : α)
    : (index.tryDetach probe).1.Refines order (SortedList.apply order records (.detach probe)).1
      ∧ (index.tryDetach probe).2.map some
        = (SortedList.apply order records (.detach probe)).2 := by
  obtain ⟨ordered, rfl, increasing, counted⟩ := refines
  rcases index.tryDetach_cases probe with
    ⟨unordered, -⟩ | ⟨used, usedOrder, missing, ended⟩ | ⟨used, removed, usedOrder, found, ended⟩
  · simp [ordered] at unordered
  · obtain rfl : order = used := Option.some.inj (ordered.symm.trans usedOrder)
    have different := Tree.remove_ascending (order · probe) index.root
      (increasing.ascending probe) missing
    have unlisted : index.root.toList.find? (order · probe = .eq) = none :=
      List.find?_eq_none.mpr (by simpa using different)
    simp only [ended, SortedList.apply, unlisted]
    exact ⟨⟨ordered, rfl, increasing, counted⟩, rfl⟩
  · obtain rfl : order = used := Option.some.inj (ordered.symm.trans usedOrder)
    obtain ⟨same, before, after, old, rest⟩ :=
      Tree.toList_remove (order · probe) index.root found
    obtain ⟨only, erased⟩ := SortedList.eq_split (old ▸ increasing) same
    rw [← old] at only erased
    simp only [ended, SortedList.apply, only, erased]
    refine ⟨⟨ordered, rest, ?_, ?_⟩, rfl⟩
    · refine List.Pairwise.sublist ?_ increasing
      rw [old]
      exact List.Sublist.append_left (List.sublist_cons_self removed after) before
    · rw [counted, old]
      simp

/-- Every change answers and acts as on the list. A deletion is a detachment that keeps the record
to itself, on both sides.
-/
theorem Refines.apply {index : Index α} {order : Comparison α} [Std.TransCmp order]
    {records : List α} (refines : index.Refines order records) (change : Change α)
    : (index.apply change).1.Refines order (SortedList.apply order records change).1
      ∧ (index.apply change).2 = (SortedList.apply order records change).2 := by
  cases change with
  | insert record => exact refines.insert record
  | detach probe => exact refines.tryDetach probe
  | delete probe =>
      obtain ⟨after, answer⟩ := refines.tryDetach probe
      have same : SortedList.apply order records (.delete probe)
          = ((SortedList.apply order records (.detach probe)).1,
            (SortedList.apply order records (.detach probe)).2.map fun _ => none) := by
        simp only [SortedList.apply]
        split <;> rfl
      rw [same]
      refine ⟨after, ?_⟩
      rw [← answer]
      simp only [Index.apply, Index.tryDelete]
      cases (index.tryDetach probe).2 <;> rfl
  | clear => exact ⟨⟨refines.ordered, rfl, List.Pairwise.nil, rfl⟩, rfl⟩

/-- Changes in turn act as on the list, by induction on them. -/
theorem Refines.run {index : Index α} {order : Comparison α} [Std.TransCmp order]
    {records : List α} (refines : index.Refines order records) (changes : List (Change α))
    : (index.run changes).Refines order
        (changes.foldl (fun records change => (SortedList.apply order records change).1)
          records) := by
  induction changes generalizing index records with
  | nil => exact refines
  | cons change rest ih => exact ih (refines.apply change).1

/-- With a lawful comparison an index is a sorted list after any changes: its records in order are
those of the list, they increase, their number is the size, and the next change, whichever it is,
is answered as the list answers it.
-/
theorem run_refines_sortedList (order : Comparison α) [Std.TransCmp order]
    (changes : List (Change α))
    : let index := (Index.ordered order).run changes
      index.toList = SortedList.run order changes
      ∧ index.toList.Pairwise (order · · = .lt)
      ∧ index.size = index.toList.length
      ∧ ∀ change,
          (index.apply change).1.toList = (SortedList.apply order index.toList change).1
          ∧ (index.apply change).2 = (SortedList.apply order index.toList change).2 := by
  intro index
  have blank : (Index.ordered order).Refines order [] := ⟨rfl, rfl, .nil, rfl⟩
  have refines : index.Refines order (SortedList.run order changes) := blank.run changes
  have view : index.toList = SortedList.run order changes := refines.view
  rw [view]
  refine ⟨rfl, refines.increasing, refines.counted, ?_⟩
  intro change
  obtain ⟨after, answer⟩ := refines.apply change
  exact ⟨after.view, answer⟩

/-- Four numbers go in and one comes out: the lawful order of numbers is a case of the theorem. -/
theorem run_refines_sortedList_numbers
    : ((Index.ordered compare).run
        [.insert 4, .insert 2, .insert 7, .insert 1, .detach 2]).toList = [1, 4, 7]
      ∧ ((Index.ordered compare).run
          [.insert 4, .insert 2, .insert 7, .insert 1, .detach 2]).toList.Pairwise
          (fun left right : Nat => compare left right = .lt) :=
  ⟨(run_refines_sortedList (compare : Nat → Nat → Ordering)
      [.insert 4, .insert 2, .insert 7, .insert 1, .detach 2]).1.trans (by decide),
    (run_refines_sortedList compare _).2.1⟩

end Index

end SpeechRom.Avl
