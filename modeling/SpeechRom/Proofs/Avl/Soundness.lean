import SpeechRom.Proofs.Avl.Sorted
import SpeechRom.Proofs.Avl.Walks

/-! The soundness check of an index against what it stands for. The check compares neighbours in the
order of a cursor and carries heights upwards; what it accepts is order and balance at every node,
in trees of any shape and with any balances.
-/

namespace SpeechRom.Avl

variable {α : Type}

/-- The sign of the difference between the heights on the left and on the right. -/
def Balance.sign : Balance → Int
  | leftHigh => 1
  | even => 0
  | rightHigh => -1

/-- A balance fits exactly when it is the sign of a difference of at most one. -/
theorem Balance.fits_iff_sign (balance : Balance) (left right : Nat)
    : balance.Fits left right
      ↔ ((left : Int) - right).natAbs ≤ 1 ∧ balance.sign = ((left : Int) - right).sign := by
  cases balance with
  | leftHigh =>
      rw [sign, eq_comm (a := 1), Int.sign_eq_one_iff_pos, Fits]
      omega
  | even =>
      rw [sign, eq_comm (a := 0), Int.sign_eq_zero_iff_zero, Fits]
      omega
  | rightHigh =>
      rw [sign, eq_comm (a := -1), Int.sign_eq_neg_one_iff_neg, Fits]
      omega

namespace Tree

-----------------------------------------------------------------------------------------
-- Order
-----------------------------------------------------------------------------------------

/-- Every record of a tree has a property. -/
def All (holds : α → Prop) : Tree α → Prop
  | leaf => True
  | node _ left record right => left.All holds ∧ holds record ∧ right.All holds

/-- The record of every node is greater than all records on its left and less than all records on
its right.
-/
def Ordered (order : Comparison α) : Tree α → Prop
  | leaf => True
  | node _ left record right =>
    left.Ordered order ∧ right.Ordered order
    ∧ left.All (order record · = .gt) ∧ right.All (order record · = .lt)

theorem all_iff {holds : α → Prop} {tree : Tree α}
    : tree.All holds ↔ ∀ record ∈ tree.toList, holds record := by
  induction tree with
  | leaf => simp [All]
  | node balance left record right ihLeft ihRight =>
      rw [All, ihLeft, ihRight, toList_node, List.forall_mem_append, List.forall_mem_cons]

/-- A tree is ordered at its nodes exactly when its records increase. Witness: records on different
sides of a node are compared through its record.
-/
theorem ordered_iff_increasing {order : Comparison α} [Std.TransCmp order] {tree : Tree α}
    : tree.Ordered order ↔ Increasing order tree.toList := by
  induction tree with
  | leaf => exact iff_of_true trivial .nil
  | node balance left record right ihLeft ihRight =>
      rw [Ordered, ihLeft, ihRight, all_iff, all_iff, toList_node]
      constructor
      · rintro ⟨leftIncreasing, rightIncreasing, greater, less⟩
        have low : ∀ stored ∈ left.toList, order stored record = .lt :=
          fun stored member => Std.OrientedCmp.lt_of_gt (greater stored member)
        refine List.pairwise_append.mpr
          ⟨leftIncreasing, List.pairwise_cons.mpr ⟨less, rightIncreasing⟩, ?_⟩
        intro earlier earlierMember later laterMember
        rcases List.mem_cons.mp laterMember with rfl | laterMember
        · exact low earlier earlierMember
        · exact Std.TransCmp.lt_trans (low earlier earlierMember) (less later laterMember)
      · intro increasing
        obtain ⟨leftIncreasing, rest, across⟩ := List.pairwise_append.mp increasing
        obtain ⟨less, rightIncreasing⟩ := List.pairwise_cons.mp rest
        refine ⟨leftIncreasing, rightIncreasing, fun stored member => ?_, less⟩
        exact Std.OrientedCmp.gt_of_lt (across stored member record List.mem_cons_self)

-----------------------------------------------------------------------------------------
-- Balance
-----------------------------------------------------------------------------------------

/-- At every node the heights of the subtrees differ by at most one, and the stored balance is the
sign of the difference.
-/
def Levelled : Tree α → Prop
  | leaf => True
  | node balance left _ right =>
    left.Levelled ∧ right.Levelled
    ∧ ((left.height : Int) - right.height).natAbs ≤ 1
    ∧ balance.sign = ((left.height : Int) - right.height).sign

theorem levelled_iff_balanced {tree : Tree α} : tree.Levelled ↔ tree.Balanced := by
  induction tree with
  | leaf => exact Iff.rfl
  | node balance left record right ihLeft ihRight =>
      rw [Levelled, ihLeft, ihRight, balanced_node, Balance.fits_iff_sign]

end Tree

namespace Index

-----------------------------------------------------------------------------------------
-- The check
-----------------------------------------------------------------------------------------

/-- The check finds a height exactly for balanced trees, and then it is the height of the tree. -/
theorem checkedHeight?_eq_some_iff {tree : Tree α} {height : Nat}
    : checkedHeight? tree = some height ↔ tree.Balanced ∧ tree.height = height := by
  induction tree generalizing height with
  | leaf => simp [checkedHeight?]
  | node balance left record right ihLeft ihRight =>
      rw [Tree.balanced_node, Balance.fits_iff, Tree.height_node]
      unfold checkedHeight?
      constructor
      · intro checked
        split at checked
        · rename_i low high leftChecked rightChecked
          obtain ⟨leftBalanced, rfl⟩ := ihLeft.mp leftChecked
          obtain ⟨rightBalanced, rfl⟩ := ihRight.mp rightChecked
          split at checked
          · rename_i fits
            exact ⟨⟨leftBalanced, rightBalanced, fits.2.2, fits.1, fits.2.1⟩,
              Option.some.inj checked⟩
          · cases checked
        · cases checked
      · rintro ⟨⟨leftBalanced, rightBalanced, fits, low, high⟩, rfl⟩
        rw [ihLeft.mpr ⟨leftBalanced, rfl⟩, ihRight.mpr ⟨rightBalanced, rfl⟩]
        exact if_pos ⟨low, high, fits⟩

theorem isSome_checkedHeight?_iff {tree : Tree α}
    : (checkedHeight? tree).isSome ↔ tree.Balanced := by
  simp [Option.isSome_iff_exists, checkedHeight?_eq_some_iff]

/-- Comparing each record with the next compares all pairs: a lawful comparison is transitive. -/
theorem isIncreasing_iff {order : Comparison α} [Std.TransCmp order] {records : List α}
    : isIncreasing order records ↔ Increasing order records := by
  have transitive : IsTrans α (order · · = .lt) := ⟨fun _ _ _ => Std.TransCmp.lt_trans⟩
  rw [Increasing, ← List.isChain_iff_pairwise]
  induction records using isIncreasing.induct with
  | case1 => simp [isIncreasing]
  | case2 record => simp [isIncreasing]
  | case3 first second rest ih => simp [isIncreasing, ih]

/-- The check of an index of any shape, with any balances and any size, says what it should. With a
lawful comparison it accepts exactly the indexes in which every node stands between the records on
its left and those on its right, every balance is the sign of a difference of heights of at most
one, and the size is the number of nodes. Without a comparison it accepts exactly the index without
nodes and of size zero.
-/
theorem isSound_iff (root : Tree α) (size : Nat) (order : Comparison α) [Std.TransCmp order]
    : (isSound ⟨root, some order, size⟩
        ↔ root.Ordered order ∧ root.Levelled ∧ size = root.size)
      ∧ (isSound ⟨root, none, size⟩ ↔ root = .leaf ∧ size = 0) := by
  have count (order : Option (Comparison α))
      : (records ⟨root, order, size⟩).length = root.size := by
    rw [records_eq_toList, toList, Tree.length_toList]
  constructor
  · simp only [isSound, Bool.and_eq_true, beq_iff_eq, count]
    rw [isSome_checkedHeight?_iff, isIncreasing_iff, records_eq_toList, toList,
      ← Tree.ordered_iff_increasing, ← Tree.levelled_iff_balanced, and_comm (a := root.Levelled),
      and_assoc, eq_comm (a := root.size)]
  · simp only [isSound, Bool.and_eq_true, beq_iff_eq, count, isEmpty]
    cases root with
    | leaf => simp [Tree.isEmpty, Tree.size, checkedHeight?, eq_comm (a := size)]
    | node => simp [Tree.isEmpty]

/-- Four records in a sound index. With five in the place of three every record still lies on the
right side of its parent, but the five lies on the left of the four, and the index is not sound.
-/
theorem isSound_iff_grandchild
    : let tree (inner : Nat) : Tree Nat :=
        .node .leftHigh (.node .rightHigh .leaf 2 (.single inner)) 4 (.single 6)
      isSound ⟨tree 3, some compare, 4⟩
      ∧ ¬ isSound ⟨tree 5, some compare, 4⟩
      ∧ ¬ isSound ⟨tree 3, some compare, 5⟩
      ∧ ¬ isSound ⟨tree 3, none, 4⟩ := by
  intro tree
  refine ⟨(isSound_iff (tree 3) 4 compare).1.mpr ?_, fun sound => ?_, fun sound => ?_,
    fun sound => ?_⟩
  · simp [tree, Tree.single, Tree.Ordered, Tree.All, Tree.Levelled, Tree.height, Tree.size,
      Balance.sign, Nat.compare_eq_lt, Nat.compare_eq_gt]
  · obtain ⟨ordered, -, -⟩ := (isSound_iff (tree 5) 4 compare).1.mp sound
    simp [tree, Tree.single, Tree.Ordered, Tree.All, Nat.compare_eq_gt] at ordered
  · obtain ⟨-, -, counted⟩ := (isSound_iff (tree 3) 5 compare).1.mp sound
    cases counted
  · cases ((isSound_iff (tree 3) 4 compare).2.mp sound).1

end Index

end SpeechRom.Avl
