import SpeechRom.Avl.Index

/-! The records of a tree in order, through rotations, insertions and removals. Nothing here
looks at balances, and nothing is asked of the comparison.
-/

namespace SpeechRom.Avl

variable {α : Type}

namespace Tree

@[simp] theorem toList_leaf : (leaf : Tree α).toList = [] := rfl

@[simp] theorem toList_node (balance : Balance) (left : Tree α) (record : α) (right : Tree α)
    : (node balance left record right).toList = left.toList ++ record :: right.toList := rfl

/-- The in-order list has one entry for each node. -/
theorem length_toList (tree : Tree α) : tree.toList.length = tree.size := by
  induction tree with
  | leaf => rfl
  | node balance left record right ihLeft ihRight =>
      simp only [toList_node, List.length_append, List.length_cons, ihLeft, ihRight, size]
      omega

-----------------------------------------------------------------------------------------
-- Rotations
-----------------------------------------------------------------------------------------

/-- A rotation to the right keeps the order, in the cases that leave the node as it is too. -/
@[simp] theorem toList_fixLeftHeavy (left : Tree α) (record : α) (right : Tree α)
    : (fixLeftHeavy left record right).1.toList = left.toList ++ record :: right.toList := by
  unfold fixLeftHeavy
  split <;> simp only [toList_leaf, toList_node, List.append_assoc, List.cons_append]

@[simp] theorem toList_fixRightHeavy (left : Tree α) (record : α) (right : Tree α)
    : (fixRightHeavy left record right).1.toList = left.toList ++ record :: right.toList := by
  unfold fixRightHeavy
  split <;> simp only [toList_leaf, toList_node, List.append_assoc, List.cons_append]

@[simp] theorem toList_leftGrew (balance : Balance) (left : Tree α) (record : α)
    (right : Tree α)
    : (leftGrew balance left record right).1.toList = left.toList ++ record :: right.toList := by
  cases balance <;> simp [leftGrew]

@[simp] theorem toList_rightGrew (balance : Balance) (left : Tree α) (record : α)
    (right : Tree α)
    : (rightGrew balance left record right).1.toList
      = left.toList ++ record :: right.toList := by
  cases balance <;> simp [rightGrew]

@[simp] theorem toList_leftShrank (balance : Balance) (left : Tree α) (record : α)
    (right : Tree α)
    : (leftShrank balance left record right).1.toList
      = left.toList ++ record :: right.toList := by
  cases balance <;> simp [leftShrank]

@[simp] theorem toList_rightShrank (balance : Balance) (left : Tree α) (record : α)
    (right : Tree α)
    : (rightShrank balance left record right).1.toList
      = left.toList ++ record :: right.toList := by
  cases balance <;> simp [rightShrank]

-----------------------------------------------------------------------------------------
-- Insertion
-----------------------------------------------------------------------------------------

@[simp] theorem Insertion.toList_throughLeft (below : Insertion α) (balance : Balance)
    (record : α) (right : Tree α)
    : (below.throughLeft balance record right).tree.toList
      = below.tree.toList ++ record :: right.toList := by
  unfold throughLeft
  split <;> simp

@[simp] theorem Insertion.toList_throughRight (below : Insertion α) (balance : Balance)
    (left : Tree α) (record : α)
    : (below.throughRight balance left record).tree.toList
      = left.toList ++ record :: below.tree.toList := by
  unfold throughRight
  split <;> simp

/-- A node has no answer exactly when the subtree below it has none. -/
@[simp] theorem Insertion.throughLeft_grew_eq_none (below : Insertion α) (balance : Balance)
    (record : α) (right : Tree α)
    : (below.throughLeft balance record right).grew = none ↔ below.grew = none := by
  unfold throughLeft
  split <;> simp

@[simp] theorem Insertion.throughRight_grew_eq_none (below : Insertion α) (balance : Balance)
    (left : Tree α) (record : α)
    : (below.throughRight balance left record).grew = none ↔ below.grew = none := by
  unfold throughRight
  split <;> simp

/-- Where the subtree has not become taller, the node keeps its balance and passes the answer on.
-/
theorem Insertion.throughLeft_level {below : Insertion α} (level : below.grew ≠ some true)
    (balance : Balance) (record : α) (right : Tree α)
    : below.throughLeft balance record right
      = ⟨node balance below.tree record right, below.grew⟩ := by
  unfold throughLeft
  split
  · exact absurd rfl level
  · rfl

theorem Insertion.throughRight_level {below : Insertion α} (level : below.grew ≠ some true)
    (balance : Balance) (left : Tree α) (record : α)
    : below.throughRight balance left record
      = ⟨node balance left record below.tree, below.grew⟩ := by
  unfold throughRight
  split
  · exact absurd rfl level
  · rfl

/-- Where the subtree has become taller, the node takes account of it. -/
theorem Insertion.throughLeft_grown {below : Insertion α} (grown : below.grew = some true)
    (balance : Balance) (record : α) (right : Tree α)
    : below.throughLeft balance record right
      = ⟨(leftGrew balance below.tree record right).1,
          some (leftGrew balance below.tree record right).2⟩ := by
  obtain ⟨tree, grew⟩ := below
  subst grown
  rfl

theorem Insertion.throughRight_grown {below : Insertion α} (grown : below.grew = some true)
    (balance : Balance) (left : Tree α) (record : α)
    : below.throughRight balance left record
      = ⟨(rightGrew balance left record below.tree).1,
          some (rightGrew balance left record below.tree).2⟩ := by
  obtain ⟨tree, grew⟩ := below
  subst grown
  rfl

/-- A refused record leaves the tree as it was, node for node.
Witness: on the way back up no node sees an answer, so none is changed.
-/
theorem insert_refused (order : α → α → Ordering) (new : α) (tree : Tree α)
    (refused : (tree.insert order new).grew = none)
    : (tree.insert order new).tree = tree := by
  induction tree with
  | leaf => simp [insert] at refused
  | node balance left record right ihLeft ihRight =>
      cases compared : order new record with
      | eq => simp only [insert, compared]
      | lt =>
          simp only [insert, compared, Insertion.throughLeft_grew_eq_none] at refused ⊢
          rw [Insertion.throughLeft_level (by simp [refused]), ihLeft refused]
      | gt =>
          simp only [insert, compared, Insertion.throughRight_grew_eq_none] at refused ⊢
          rw [Insertion.throughRight_level (by simp [refused]), ihRight refused]

/-- An accepted record stands at one place among the others, whose order is the old one.
Witness: the place is found below a node, and the node's record and other subtree are added
to the one side of it or the other.
-/
theorem toList_insert (order : α → α → Ordering) (new : α) (tree : Tree α)
    (accepted : (tree.insert order new).grew ≠ none)
    : ∃ before after,
        tree.toList = before ++ after
        ∧ (tree.insert order new).tree.toList = before ++ new :: after := by
  induction tree with
  | leaf => exact ⟨[], [], rfl, rfl⟩
  | node balance left record right ihLeft ihRight =>
      cases compared : order new record with
      | eq => simp [insert, compared] at accepted
      | lt =>
          simp only [insert, compared, Ne, Insertion.throughLeft_grew_eq_none] at accepted
          obtain ⟨before, after, old, inserted⟩ := ihLeft accepted
          refine ⟨before, after ++ record :: right.toList, ?_, ?_⟩
          · simp only [toList_node, old, List.append_assoc]
          · simp only [insert, compared, Insertion.toList_throughLeft, inserted,
              List.append_assoc, List.cons_append]
      | gt =>
          simp only [insert, compared, Ne, Insertion.throughRight_grew_eq_none] at accepted
          obtain ⟨before, after, old, inserted⟩ := ihRight accepted
          refine ⟨left.toList ++ record :: before, after, ?_, ?_⟩
          · simp only [toList_node, old, List.append_assoc, List.cons_append]
          · simp only [insert, compared, Insertion.toList_throughRight, inserted,
              List.append_assoc, List.cons_append]

/-- After an insertion there are the old records and perhaps the new one. -/
theorem mem_insert {order : α → α → Ordering} {new record : α} {tree : Tree α}
    (member : record ∈ (tree.insert order new).tree.toList)
    : record = new ∨ record ∈ tree.toList := by
  by_cases refused : (tree.insert order new).grew = none
  · rw [insert_refused order new tree refused] at member
    exact .inr member
  · obtain ⟨before, after, old, inserted⟩ := toList_insert order new tree refused
    rw [inserted] at member
    rw [old]
    rcases List.mem_append.mp member with member | member
    · exact .inr (List.mem_append_left after member)
    rcases List.mem_cons.mp member with rfl | member
    · exact .inl rfl
    · exact .inr (List.mem_append_right before member)

-----------------------------------------------------------------------------------------
-- Removal
-----------------------------------------------------------------------------------------

/-- The record that was removed, if one was. -/
def Removal.record? (removal : Removal α) : Option α := removal.removed.map (·.record)

@[simp] theorem Removal.toList_throughLeft (below : Removal α) (balance : Balance)
    (record : α) (right : Tree α)
    : (below.throughLeft balance record right).rest.toList
      = below.rest.toList ++ record :: right.toList := by
  unfold throughLeft
  split <;> simp

@[simp] theorem Removal.toList_throughRight (below : Removal α) (balance : Balance)
    (left : Tree α) (record : α)
    : (below.throughRight balance left record).rest.toList
      = left.toList ++ record :: below.rest.toList := by
  unfold throughRight
  split <;> simp

/-- A node passes on the record that was removed below it. -/
@[simp] theorem Removal.record?_throughLeft (below : Removal α) (balance : Balance)
    (record : α) (right : Tree α)
    : (below.throughLeft balance record right).record? = below.record? := by
  unfold throughLeft
  split <;> simp [record?]

@[simp] theorem Removal.record?_throughRight (below : Removal α) (balance : Balance)
    (left : Tree α) (record : α)
    : (below.throughRight balance left record).record? = below.record? := by
  unfold throughRight
  split <;> simp [record?]

/-- Whether the tree is lower without the removed record. -/
def Removal.shrank (removal : Removal α) : Bool := removal.removed.any (·.shrank)

/-- Where the subtree has not become lower, the node keeps its balance and passes the answer on.
-/
theorem Removal.throughLeft_level {below : Removal α} (level : below.shrank = false)
    (balance : Balance) (record : α) (right : Tree α)
    : below.throughLeft balance record right
      = ⟨node balance below.rest record right, below.removed⟩ := by
  unfold throughLeft
  split
  · simp [shrank] at level
  · rfl

theorem Removal.throughRight_level {below : Removal α} (level : below.shrank = false)
    (balance : Balance) (left : Tree α) (record : α)
    : below.throughRight balance left record
      = ⟨node balance left record below.rest, below.removed⟩ := by
  unfold throughRight
  split
  · simp [shrank] at level
  · rfl

/-- Where the subtree has become lower, the node takes account of it. -/
theorem Removal.throughLeft_shrunk {below : Removal α} (lower : below.shrank = true)
    (balance : Balance) (record : α) (right : Tree α)
    : ∃ gone, below.throughLeft balance record right
        = ⟨(leftShrank balance below.rest record right).1,
            some ⟨gone, (leftShrank balance below.rest record right).2⟩⟩ := by
  obtain ⟨rest, removed⟩ := below
  obtain ⟨⟨gone, shrank⟩, rfl, shrunk⟩ := (Option.any_eq_true _ _).mp lower
  obtain rfl : shrank = true := shrunk
  exact ⟨gone, rfl⟩

theorem Removal.throughRight_shrunk {below : Removal α} (lower : below.shrank = true)
    (balance : Balance) (left : Tree α) (record : α)
    : ∃ gone, below.throughRight balance left record
        = ⟨(rightShrank balance left record below.rest).1,
            some ⟨gone, (rightShrank balance left record below.rest).2⟩⟩ := by
  obtain ⟨rest, removed⟩ := below
  obtain ⟨⟨gone, shrank⟩, rfl, shrunk⟩ := (Option.any_eq_true _ _).mp lower
  obtain rfl : shrank = true := shrunk
  exact ⟨gone, rfl⟩

theorem Removal.shrank_missing {removal : Removal α} (missing : removal.record? = none)
    : removal.shrank = false := by
  simp only [record?, Option.map_eq_none_iff] at missing
  simp [shrank, missing]

/-- A tree with nodes has a last record, and removing it leaves those before it.
Witness: the right spine ends in a node without a right subtree.
-/
theorem removeLast_spec {tree : Tree α} (present : tree ≠ leaf)
    : ∃ last, (removeLast tree).record? = some last
        ∧ tree.toList = (removeLast tree).rest.toList ++ [last] := by
  induction tree with
  | leaf => exact absurd rfl present
  | node balance left record right _ ihRight =>
      cases right with
      | leaf => exact ⟨record, rfl, rfl⟩
      | node lower inner child outer =>
          obtain ⟨last, found, old⟩ := ihRight (by simp)
          refine ⟨last, ?_, ?_⟩
          · simp only [removeLast, Removal.record?_throughRight, found]
          · rw [toList_node, old]
            simp only [removeLast, Removal.toList_throughRight, List.append_assoc,
              List.cons_append]

theorem removeFirst_spec {tree : Tree α} (present : tree ≠ leaf)
    : ∃ first, (removeFirst tree).record? = some first
        ∧ tree.toList = first :: (removeFirst tree).rest.toList := by
  induction tree with
  | leaf => exact absurd rfl present
  | node balance left record right ihLeft _ =>
      cases left with
      | leaf => exact ⟨record, rfl, rfl⟩
      | node lower outer child inner =>
          obtain ⟨first, found, old⟩ := ihLeft (by simp)
          refine ⟨first, ?_, ?_⟩
          · simp only [removeFirst, Removal.record?_throughLeft, found]
          · rw [toList_node, old]
            simp only [removeFirst, Removal.toList_throughLeft, List.cons_append]

/-- With two subtrees and the left one taller, the last record of the left subtree takes the
node's place. Witness: the left subtree is no leaf, so there is such a record.
-/
theorem unlink_fromLeft {left right : Tree α} (leftPresent : left ≠ leaf)
    (rightPresent : right ≠ leaf) (record : α)
    : ∃ neighbour shrank,
        (removeLast left).removed = some ⟨neighbour, shrank⟩
        ∧ left.toList = (removeLast left).rest.toList ++ [neighbour]
        ∧ unlink .leftHigh left record right
          = Removal.throughLeft ⟨(removeLast left).rest, some ⟨record, shrank⟩⟩ .leftHigh
              neighbour right := by
  obtain ⟨last, found, old⟩ := removeLast_spec leftPresent
  obtain ⟨⟨neighbour, shrank⟩, removed, rfl⟩ := Option.map_eq_some_iff.mp found
  refine ⟨neighbour, shrank, removed, old, ?_⟩
  obtain _ | ⟨_, _, _, _⟩ := left
  · exact absurd rfl leftPresent
  obtain _ | ⟨_, _, _, _⟩ := right
  · exact absurd rfl rightPresent
  -- The branch in which the neighbour is missing contradicts `removed`.
  simp only [unlink, if_true]
  split
  · simp_all
  · simp_all

theorem unlink_fromRight {balance : Balance} {left right : Tree α}
    (notLeftHigh : balance ≠ .leftHigh) (leftPresent : left ≠ leaf)
    (rightPresent : right ≠ leaf) (record : α)
    : ∃ neighbour shrank,
        (removeFirst right).removed = some ⟨neighbour, shrank⟩
        ∧ right.toList = neighbour :: (removeFirst right).rest.toList
        ∧ unlink balance left record right
          = Removal.throughRight ⟨(removeFirst right).rest, some ⟨record, shrank⟩⟩ balance
              left neighbour := by
  obtain ⟨first, found, old⟩ := removeFirst_spec rightPresent
  obtain ⟨⟨neighbour, shrank⟩, removed, rfl⟩ := Option.map_eq_some_iff.mp found
  refine ⟨neighbour, shrank, removed, old, ?_⟩
  obtain _ | ⟨_, _, _, _⟩ := left
  · exact absurd rfl leftPresent
  obtain _ | ⟨_, _, _, _⟩ := right
  · exact absurd rfl rightPresent
  simp only [unlink, if_neg notLeftHigh]
  split
  · simp_all
  · simp_all

/-- Unlinking a node always gives its record back and keeps all others in order. -/
theorem unlink_spec (balance : Balance) (left : Tree α) (record : α) (right : Tree α)
    : (unlink balance left record right).record? = some record
      ∧ (unlink balance left record right).rest.toList = left.toList ++ right.toList := by
  by_cases leftPresent : left = leaf
  · subst leftPresent
    exact ⟨rfl, rfl⟩
  by_cases rightPresent : right = leaf
  · subst rightPresent
    cases left <;> exact ⟨rfl, by simp [unlink]⟩
  by_cases high : balance = .leftHigh
  · subst high
    obtain ⟨neighbour, shrank, -, old, eq⟩ := unlink_fromLeft leftPresent rightPresent record
    rw [eq, old]
    exact ⟨Removal.record?_throughLeft _ _ _ _, by simp⟩
  · obtain ⟨neighbour, shrank, -, old, eq⟩ :=
      unlink_fromRight high leftPresent rightPresent record
    rw [eq, old]
    exact ⟨Removal.record?_throughRight _ _ _ _, by simp⟩

/-- A search that finds nothing leaves the tree as it was, node for node.
Witness: unlinking always finds its record, so the search ended at a leaf.
-/
theorem remove_missing (locate : α → Ordering) (tree : Tree α)
    (missing : (tree.remove locate).record? = none)
    : (tree.remove locate).rest = tree := by
  induction tree with
  | leaf => rfl
  | node balance left record right ihLeft ihRight =>
      cases located : locate record with
      | eq => simp [remove, located, unlink_spec] at missing
      | gt =>
          simp only [remove, located, Removal.record?_throughLeft] at missing ⊢
          rw [Removal.throughLeft_level (Removal.shrank_missing missing), ihLeft missing]
      | lt =>
          simp only [remove, located, Removal.record?_throughRight] at missing ⊢
          rw [Removal.throughRight_level (Removal.shrank_missing missing), ihRight missing]

/-- A removed record is one that the search stops at, and all others stay in order.
Witness: the place is found below a node, and the node's record and other subtree are added
to the one side of it or the other.
-/
theorem toList_remove (locate : α → Ordering) (tree : Tree α) {removed : α}
    (found : (tree.remove locate).record? = some removed)
    : locate removed = .eq
      ∧ ∃ before after,
          tree.toList = before ++ removed :: after
          ∧ (tree.remove locate).rest.toList = before ++ after := by
  induction tree with
  | leaf => simp [remove, Removal.record?] at found
  | node balance left record right ihLeft ihRight =>
      cases located : locate record with
      | eq =>
          obtain ⟨gives, others⟩ := unlink_spec balance left record right
          simp only [remove, located] at found ⊢
          obtain rfl : record = removed := Option.some.inj (gives.symm.trans found)
          exact ⟨located, left.toList, right.toList, rfl, others⟩
      | gt =>
          simp only [remove, located, Removal.record?_throughLeft] at found
          obtain ⟨stopped, before, after, old, rest⟩ := ihLeft found
          refine ⟨stopped, before, after ++ record :: right.toList, ?_, ?_⟩
          · simp only [toList_node, old, List.append_assoc, List.cons_append]
          · simp only [remove, located, Removal.toList_throughLeft, rest, List.append_assoc]
      | lt =>
          simp only [remove, located, Removal.record?_throughRight] at found
          obtain ⟨stopped, before, after, old, rest⟩ := ihRight found
          refine ⟨stopped, left.toList ++ record :: before, after, ?_, ?_⟩
          · simp only [toList_node, old, List.append_assoc, List.cons_append]
          · simp only [remove, located, Removal.toList_throughRight, rest, List.append_assoc,
              List.cons_append]

-----------------------------------------------------------------------------------------
-- Search and change of a record
-----------------------------------------------------------------------------------------

/-- A search ends at a record that it is told is the one. -/
theorem find?_spec {locate : α → Ordering} {tree : Tree α} {record : α}
    (found : tree.find? locate = some record)
    : record ∈ tree.toList ∧ locate record = .eq := by
  induction tree with
  | leaf => cases found
  | node balance left stored right ihLeft ihRight =>
      rw [find?] at found
      cases located : locate stored with
      | eq =>
          rw [located] at found
          obtain rfl : stored = record := Option.some.inj found
          exact ⟨by simp, located⟩
      | gt =>
          rw [located] at found
          obtain ⟨member, same⟩ := ihLeft found
          exact ⟨by simp [member], same⟩
      | lt =>
          rw [located] at found
          obtain ⟨member, same⟩ := ihRight found
          exact ⟨by simp [member], same⟩

/-- After a change to one record there are the old ones and perhaps the changed one. -/
theorem mem_modify {locate : α → Ordering} {change : α → α} {tree : Tree α} {record : α}
    (member : record ∈ (tree.modify locate change).toList)
    : record ∈ tree.toList ∨ ∃ old ∈ tree.toList, record = change old := by
  induction tree with
  | leaf => exact .inl member
  | node balance left stored right ihLeft ihRight =>
      rw [modify] at member
      cases located : locate stored with
      | eq =>
          rw [located, toList_node] at member
          rcases List.mem_append.mp member with member | member
          · exact .inl (by simp [member])
          rcases List.mem_cons.mp member with rfl | member
          · exact .inr ⟨stored, by simp, rfl⟩
          · exact .inl (by simp [member])
      | gt =>
          rw [located, toList_node] at member
          rcases List.mem_append.mp member with member | member
          · rcases ihLeft member with member | ⟨old, member, changed⟩
            · exact .inl (by simp [member])
            · exact .inr ⟨old, by simp [member], changed⟩
          · exact .inl (by rw [toList_node]; exact List.mem_append_right _ member)
      | lt =>
          rw [located, toList_node] at member
          rcases List.mem_append.mp member with member | member
          · exact .inl (by simp [member])
          rcases List.mem_cons.mp member with rfl | member
          · exact .inl (by simp)
          · rcases ihRight member with member | ⟨old, member, changed⟩
            · exact .inl (by simp [member])
            · exact .inr ⟨old, by simp [member], changed⟩

end Tree

end SpeechRom.Avl
