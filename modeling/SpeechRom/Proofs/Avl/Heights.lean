import SpeechRom.Proofs.Avl.Records

/-! Balances say how the heights of subtrees lie, and insertions and removals keep it so. No
comparison has to be lawful for that: only the shape of the tree counts.
-/

namespace SpeechRom.Avl

variable {α : Type}

-----------------------------------------------------------------------------------------
-- Balanced trees
-----------------------------------------------------------------------------------------

/-- The two heights differ as the balance says. -/
def Balance.Fits : Balance → Nat → Nat → Prop
  | leftHigh, left, right => left = right + 1
  | even, left, right => left = right
  | rightHigh, left, right => right = left + 1

/-- A balance fits exactly when it is the one that the heights call for and they are at most one
level apart.
-/
theorem Balance.fits_iff (balance : Balance) (left right : Nat)
    : balance.Fits left right
      ↔ balance = Index.balanceOf left right ∧ left ≤ right + 1 ∧ right ≤ left + 1 := by
  unfold Index.balanceOf
  rcases Nat.lt_trichotomy left right with below | same | above
  · rw [Nat.compare_eq_lt.mpr below]
    cases balance <;> simp [Fits] <;> omega
  · rw [Nat.compare_eq_eq.mpr same]
    cases balance <;> simp [Fits] <;> omega
  · rw [Nat.compare_eq_gt.mpr above]
    cases balance <;> simp [Fits] <;> omega

namespace Tree

/-- At every node the subtrees are at most one level apart, and the stored balance is the one
that their heights call for.
-/
def Balanced : Tree α → Prop
  | leaf => True
  | node balance left _ right =>
    left.Balanced ∧ right.Balanced
    ∧ balance = Index.balanceOf left.height right.height
    ∧ left.height ≤ right.height + 1 ∧ right.height ≤ left.height + 1

@[simp] theorem balanced_leaf : (leaf : Tree α).Balanced := trivial

@[simp] theorem height_leaf : (leaf : Tree α).height = 0 := rfl

@[simp] theorem height_node (balance : Balance) (left : Tree α) (record : α) (right : Tree α)
    : (node balance left record right).height = 1 + max left.height right.height := rfl

@[simp] theorem balanced_node {balance : Balance} {left : Tree α} {record : α} {right : Tree α}
    : (node balance left record right).Balanced
      ↔ left.Balanced ∧ right.Balanced ∧ balance.Fits left.height right.height := by
  rw [Balance.fits_iff]
  exact Iff.rfl

/-- One subtree of the root is taller than the other. -/
def Tilted : Tree α → Prop
  | leaf => False
  | node balance _ _ _ => balance ≠ .even

-----------------------------------------------------------------------------------------
-- Rotations
-----------------------------------------------------------------------------------------

/-- A node that is two levels too tall on the left is repaired, and the flag says by how much it
has become lower. Witness: in each rotation the heights of the parts follow from the balances
that were stored; the cases that leave the node alone cannot be two levels too tall.
-/
theorem fixLeftHeavy_spec {left right : Tree α} (leftBalanced : left.Balanced)
    (rightBalanced : right.Balanced) (tall : left.height = right.height + 2) (record : α)
    : (fixLeftHeavy left record right).1.Balanced
      ∧ (fixLeftHeavy left record right).1.height
          + (fixLeftHeavy left record right).2.toNat = right.height + 3 := by
  unfold fixLeftHeavy
  split
  -- The left subtree is missing, or leans to the right with nothing there.
  case h_1 => simp at tall
  case h_4 => simp [Balance.Fits] at leftBalanced
  all_goals
    simp only [balanced_node, height_node, Balance.Fits] at leftBalanced tall ⊢
    simp only [leftBalanced, rightBalanced, Bool.toNat_true, Bool.toNat_false, true_and]
    omega

theorem fixRightHeavy_spec {left right : Tree α} (leftBalanced : left.Balanced)
    (rightBalanced : right.Balanced) (tall : right.height = left.height + 2) (record : α)
    : (fixRightHeavy left record right).1.Balanced
      ∧ (fixRightHeavy left record right).1.height
          + (fixRightHeavy left record right).2.toNat = left.height + 3 := by
  unfold fixRightHeavy
  split
  case h_1 => simp at tall
  case h_4 => simp [Balance.Fits] at rightBalanced
  all_goals
    simp only [balanced_node, height_node, Balance.Fits] at rightBalanced tall ⊢
    simp only [leftBalanced, rightBalanced, Bool.toNat_true, Bool.toNat_false, true_and]
    omega

/-- A rotation of a tilted left subtree makes the node lower. -/
theorem fixLeftHeavy_lowers {left right : Tree α} (leftBalanced : left.Balanced)
    (tilted : left.Tilted) (record : α)
    : (fixLeftHeavy left record right).2 = true := by
  unfold fixLeftHeavy
  split
  case h_1 => exact absurd tilted id
  case h_3 => exact absurd rfl tilted
  case h_4 => simp [Balance.Fits] at leftBalanced
  all_goals rfl

theorem fixRightHeavy_lowers {left right : Tree α} (rightBalanced : right.Balanced)
    (tilted : right.Tilted) (record : α)
    : (fixRightHeavy left record right).2 = true := by
  unfold fixRightHeavy
  split
  case h_1 => exact absurd tilted id
  case h_3 => exact absurd rfl tilted
  case h_4 => simp [Balance.Fits] at rightBalanced
  all_goals rfl

-----------------------------------------------------------------------------------------
-- Subtrees that grow
-----------------------------------------------------------------------------------------

/-- A node whose left subtree has become one level taller is balanced again, has risen as the
answer says, and is tilted if it has.
-/
theorem leftGrew_spec {balance : Balance} {left right : Tree α} {height : Nat}
    (leftBalanced : left.Balanced) (rightBalanced : right.Balanced)
    (grew : left.height = height + 1) (fits : balance.Fits height right.height)
    (tilted : height ≠ 0 → left.Tilted) (record : α)
    : (leftGrew balance left record right).1.Balanced
      ∧ (leftGrew balance left record right).1.height
        = 1 + max height right.height + (leftGrew balance left record right).2.toNat
      ∧ ((leftGrew balance left record right).2 = true
        → (leftGrew balance left record right).1.Tilted) := by
  cases balance with
  | rightHigh =>
      simp only [Balance.Fits] at fits
      simp only [leftGrew, balanced_node, height_node, Balance.Fits, Bool.toNat_false]
      exact ⟨⟨leftBalanced, rightBalanced, by omega⟩, by omega, by simp⟩
  | even =>
      simp only [Balance.Fits] at fits
      simp only [leftGrew, balanced_node, height_node, Balance.Fits, Bool.toNat_true]
      exact ⟨⟨leftBalanced, rightBalanced, by omega⟩, by omega, by simp [Tilted]⟩
  | leftHigh =>
      -- The flag of the rotation is not looked at: it is set, because a subtree that grows becomes
      -- tilted unless it was a leaf, and a node cannot lean towards a leaf.
      simp only [Balance.Fits] at fits
      have repaired := fixLeftHeavy_spec leftBalanced rightBalanced (by omega) record
      have lower : (fixLeftHeavy left record right).2 = true :=
        fixLeftHeavy_lowers leftBalanced (tilted (by omega)) record
      simp only [lower, Bool.toNat_true] at repaired
      simp only [leftGrew, Bool.toNat_false]
      exact ⟨repaired.1, by omega, by simp⟩

theorem rightGrew_spec {balance : Balance} {left right : Tree α} {height : Nat}
    (leftBalanced : left.Balanced) (rightBalanced : right.Balanced)
    (grew : right.height = height + 1) (fits : balance.Fits left.height height)
    (tilted : height ≠ 0 → right.Tilted) (record : α)
    : (rightGrew balance left record right).1.Balanced
      ∧ (rightGrew balance left record right).1.height
        = 1 + max left.height height + (rightGrew balance left record right).2.toNat
      ∧ ((rightGrew balance left record right).2 = true
        → (rightGrew balance left record right).1.Tilted) := by
  cases balance with
  | leftHigh =>
      simp only [Balance.Fits] at fits
      simp only [rightGrew, balanced_node, height_node, Balance.Fits, Bool.toNat_false]
      exact ⟨⟨leftBalanced, rightBalanced, by omega⟩, by omega, by simp⟩
  | even =>
      simp only [Balance.Fits] at fits
      simp only [rightGrew, balanced_node, height_node, Balance.Fits, Bool.toNat_true]
      exact ⟨⟨leftBalanced, rightBalanced, by omega⟩, by omega, by simp [Tilted]⟩
  | rightHigh =>
      simp only [Balance.Fits] at fits
      have repaired := fixRightHeavy_spec leftBalanced rightBalanced (by omega) record
      have lower : (fixRightHeavy left record right).2 = true :=
        fixRightHeavy_lowers rightBalanced (tilted (by omega)) record
      simp only [lower, Bool.toNat_true] at repaired
      simp only [rightGrew, Bool.toNat_false]
      exact ⟨repaired.1, by omega, by simp⟩

/-- What an insertion owes to the tree before it: a balanced tree that is one level taller if the
answer says so and as tall as before if not, and that is tilted if it is taller and was no leaf.
-/
structure Insertion.Exact (insertion : Insertion α) (before : Tree α) : Prop where
  balanced : insertion.tree.Balanced
  grown : insertion.grew = some true → insertion.tree.height = before.height + 1
  level : insertion.grew ≠ some true → insertion.tree.height = before.height
  tilted : insertion.grew = some true → before.height ≠ 0 → insertion.tree.Tilted

theorem Insertion.Exact.of_rise {tree before : Tree α} {grew : Bool} (balanced : tree.Balanced)
    (height : tree.height = before.height + grew.toNat) (tilted : grew = true → tree.Tilted)
    : Insertion.Exact ⟨tree, some grew⟩ before := by
  cases grew with
  | false => exact ⟨balanced, by simp, fun _ => height, by simp⟩
  | true => exact ⟨balanced, fun _ => height, by simp, fun _ _ => tilted rfl⟩

/-- An exact insertion on the left is exact at the node. -/
theorem Insertion.Exact.throughLeft {below : Insertion α} {balance : Balance}
    {left right : Tree α} {record : α} (kept : below.Exact left)
    (before : (node balance left record right).Balanced)
    : (below.throughLeft balance record right).Exact (node balance left record right) := by
  obtain ⟨-, rightBalanced, fits⟩ := balanced_node.mp before
  by_cases grew : below.grew = some true
  · obtain ⟨balanced, height, tilted⟩ :=
      leftGrew_spec kept.balanced rightBalanced (kept.grown grew) fits (kept.tilted grew) record
    rw [Insertion.throughLeft_grown grew]
    exact .of_rise balanced height tilted
  · have height := kept.level grew
    rw [Insertion.throughLeft_level grew]
    exact ⟨balanced_node.mpr ⟨kept.balanced, rightBalanced, height ▸ fits⟩,
      fun grown => absurd grown grew, fun _ => by simp [height], fun grown => absurd grown grew⟩

theorem Insertion.Exact.throughRight {below : Insertion α} {balance : Balance}
    {left right : Tree α} {record : α} (kept : below.Exact right)
    (before : (node balance left record right).Balanced)
    : (below.throughRight balance left record).Exact (node balance left record right) := by
  obtain ⟨leftBalanced, -, fits⟩ := balanced_node.mp before
  by_cases grew : below.grew = some true
  · obtain ⟨balanced, height, tilted⟩ :=
      rightGrew_spec leftBalanced kept.balanced (kept.grown grew) fits (kept.tilted grew) record
    rw [Insertion.throughRight_grown grew]
    exact .of_rise balanced height tilted
  · have height := kept.level grew
    rw [Insertion.throughRight_level grew]
    exact ⟨balanced_node.mpr ⟨leftBalanced, kept.balanced, height ▸ fits⟩,
      fun grown => absurd grown grew, fun _ => by simp [height], fun grown => absurd grown grew⟩

/-- Insertion into a balanced tree is exact, wherever the comparison leads. -/
theorem insert_exact (order : α → α → Ordering) (new : α) {tree : Tree α}
    (balanced : tree.Balanced)
    : (tree.insert order new).Exact tree := by
  induction tree with
  | leaf =>
      exact ⟨by simp [insert, single, Balance.Fits], fun _ => rfl,
        fun level => absurd rfl level, fun _ present => absurd rfl present⟩
  | node balance left record right ihLeft ihRight =>
      cases compared : order new record with
      | eq =>
          simp only [insert, compared]
          exact ⟨balanced, by simp, fun _ => rfl, by simp⟩
      | lt =>
          simp only [insert, compared]
          exact (ihLeft (balanced_node.mp balanced).1).throughLeft balanced
      | gt =>
          simp only [insert, compared]
          exact (ihRight (balanced_node.mp balanced).2.1).throughRight balanced

-----------------------------------------------------------------------------------------
-- Subtrees that shrink
-----------------------------------------------------------------------------------------

/-- A node whose left subtree has become one level lower is balanced again, and is lower itself
as the answer says.
-/
theorem leftShrank_spec {balance : Balance} {left right : Tree α} (leftBalanced : left.Balanced)
    (rightBalanced : right.Balanced) (fits : balance.Fits (left.height + 1) right.height)
    (record : α)
    : (leftShrank balance left record right).1.Balanced
      ∧ (leftShrank balance left record right).1.height
          + (leftShrank balance left record right).2.toNat
        = 1 + max (left.height + 1) right.height := by
  cases balance with
  | leftHigh =>
      simp only [Balance.Fits] at fits
      simp only [leftShrank, balanced_node, height_node, Balance.Fits, Bool.toNat_true]
      exact ⟨⟨leftBalanced, rightBalanced, by omega⟩, by omega⟩
  | even =>
      simp only [Balance.Fits] at fits
      simp only [leftShrank, balanced_node, height_node, Balance.Fits, Bool.toNat_false]
      exact ⟨⟨leftBalanced, rightBalanced, by omega⟩, by omega⟩
  | rightHigh =>
      simp only [Balance.Fits] at fits
      have repaired := fixRightHeavy_spec leftBalanced rightBalanced (by omega) record
      simp only [leftShrank]
      exact ⟨repaired.1, by omega⟩

theorem rightShrank_spec {balance : Balance} {left right : Tree α}
    (leftBalanced : left.Balanced) (rightBalanced : right.Balanced)
    (fits : balance.Fits left.height (right.height + 1)) (record : α)
    : (rightShrank balance left record right).1.Balanced
      ∧ (rightShrank balance left record right).1.height
          + (rightShrank balance left record right).2.toNat
        = 1 + max left.height (right.height + 1) := by
  cases balance with
  | rightHigh =>
      simp only [Balance.Fits] at fits
      simp only [rightShrank, balanced_node, height_node, Balance.Fits, Bool.toNat_true]
      exact ⟨⟨leftBalanced, rightBalanced, by omega⟩, by omega⟩
  | even =>
      simp only [Balance.Fits] at fits
      simp only [rightShrank, balanced_node, height_node, Balance.Fits, Bool.toNat_false]
      exact ⟨⟨leftBalanced, rightBalanced, by omega⟩, by omega⟩
  | leftHigh =>
      simp only [Balance.Fits] at fits
      have repaired := fixLeftHeavy_spec leftBalanced rightBalanced (by omega) record
      simp only [rightShrank]
      exact ⟨repaired.1, by omega⟩

/-- What a removal owes to the tree before it: a balanced tree that is one level lower if the
answer says so and as tall as before if not.
-/
structure Removal.Exact (removal : Removal α) (before : Tree α) : Prop where
  balanced : removal.rest.Balanced
  height : removal.rest.height + removal.shrank.toNat = before.height

/-- An exact removal on the left is exact at the node, whatever record then stands there. -/
theorem Removal.Exact.throughLeft {below : Removal α} {balance : Balance}
    {left right : Tree α} {old : α} (kept : below.Exact left)
    (before : (node balance left old right).Balanced) (record : α)
    : (below.throughLeft balance record right).Exact (node balance left old right) := by
  obtain ⟨-, rightBalanced, fits⟩ := balanced_node.mp before
  have height := kept.height
  cases lower : below.shrank with
  | true =>
      simp only [lower, Bool.toNat_true] at height
      obtain ⟨balanced, shrunk⟩ :=
        leftShrank_spec kept.balanced rightBalanced (height ▸ fits) record
      obtain ⟨gone, eq⟩ := Removal.throughLeft_shrunk lower balance record right
      rw [height] at shrunk
      rw [eq]
      exact ⟨balanced, shrunk⟩
  | false =>
      simp only [lower, Bool.toNat_false, Nat.add_zero] at height
      rw [Removal.throughLeft_level lower]
      refine ⟨balanced_node.mpr ⟨kept.balanced, rightBalanced, height ▸ fits⟩, ?_⟩
      simp only [Removal.shrank] at lower
      simp [Removal.shrank, lower, height]

theorem Removal.Exact.throughRight {below : Removal α} {balance : Balance}
    {left right : Tree α} {old : α} (kept : below.Exact right)
    (before : (node balance left old right).Balanced) (record : α)
    : (below.throughRight balance left record).Exact (node balance left old right) := by
  obtain ⟨leftBalanced, -, fits⟩ := balanced_node.mp before
  have height := kept.height
  cases lower : below.shrank with
  | true =>
      simp only [lower, Bool.toNat_true] at height
      obtain ⟨balanced, shrunk⟩ :=
        rightShrank_spec leftBalanced kept.balanced (height ▸ fits) record
      obtain ⟨gone, eq⟩ := Removal.throughRight_shrunk lower balance left record
      rw [height] at shrunk
      rw [eq]
      exact ⟨balanced, shrunk⟩
  | false =>
      simp only [lower, Bool.toNat_false, Nat.add_zero] at height
      rw [Removal.throughRight_level lower]
      refine ⟨balanced_node.mpr ⟨leftBalanced, kept.balanced, height ▸ fits⟩, ?_⟩
      simp only [Removal.shrank] at lower
      simp [Removal.shrank, lower, height]

/-- Removing the last record of a balanced tree is exact, by induction along the right spine. -/
theorem removeLast_exact {tree : Tree α} (balanced : tree.Balanced)
    : (removeLast tree).Exact tree := by
  induction tree with
  | leaf => exact ⟨trivial, rfl⟩
  | node balance left record right _ ihRight =>
      obtain ⟨leftBalanced, rightBalanced, fits⟩ := balanced_node.mp balanced
      cases right with
      | leaf => exact ⟨leftBalanced, by simp [removeLast, Removal.shrank, Nat.add_comm]⟩
      | node => exact (ihRight rightBalanced).throughRight balanced record

theorem removeFirst_exact {tree : Tree α} (balanced : tree.Balanced)
    : (removeFirst tree).Exact tree := by
  induction tree with
  | leaf => exact ⟨trivial, rfl⟩
  | node balance left record right ihLeft _ =>
      obtain ⟨leftBalanced, rightBalanced, fits⟩ := balanced_node.mp balanced
      cases left with
      | leaf => exact ⟨rightBalanced, by simp [removeFirst, Removal.shrank, Nat.add_comm]⟩
      | node => exact (ihLeft leftBalanced).throughLeft balanced record

/-- Exactness does not depend on which record is given back. -/
theorem Removal.Exact.exchange {removal : Removal α} {before : Tree α} {neighbour : α}
    {shrank : Bool} (kept : removal.Exact before)
    (removed : removal.removed = some ⟨neighbour, shrank⟩) (record : α)
    : Removal.Exact ⟨removal.rest, some ⟨record, shrank⟩⟩ before := by
  have same : removal.shrank = shrank := by simp [Removal.shrank, removed]
  exact ⟨kept.balanced, same ▸ kept.height⟩

/-- Unlinking a node of a balanced tree is exact. With two subtrees the removal of the neighbour
is carried on to the node, at which the neighbour then stands.
-/
theorem unlink_exact {balance : Balance} {left right : Tree α} {record : α}
    (balanced : (node balance left record right).Balanced)
    : (unlink balance left record right).Exact (node balance left record right) := by
  obtain ⟨leftBalanced, rightBalanced, fits⟩ := balanced_node.mp balanced
  by_cases leftPresent : left = leaf
  · subst leftPresent
    exact ⟨rightBalanced, by simp [unlink, Removal.shrank, Nat.add_comm]⟩
  by_cases rightPresent : right = leaf
  · subst rightPresent
    obtain _ | _ := left
    · exact ⟨leftBalanced, rfl⟩
    · exact ⟨leftBalanced, by simp [unlink, Removal.shrank, Nat.add_comm]⟩
  by_cases high : balance = .leftHigh
  · subst high
    obtain ⟨neighbour, shrank, removed, -, eq⟩ :=
      unlink_fromLeft leftPresent rightPresent record
    rw [eq]
    exact ((removeLast_exact leftBalanced).exchange removed record).throughLeft balanced neighbour
  · obtain ⟨neighbour, shrank, removed, -, eq⟩ :=
      unlink_fromRight high leftPresent rightPresent record
    rw [eq]
    exact ((removeFirst_exact rightBalanced).exchange removed record).throughRight balanced
      neighbour

/-- Removal from a balanced tree is exact, wherever the search leads. -/
theorem remove_exact (locate : α → Ordering) {tree : Tree α} (balanced : tree.Balanced)
    : (tree.remove locate).Exact tree := by
  induction tree with
  | leaf => exact ⟨trivial, rfl⟩
  | node balance left record right ihLeft ihRight =>
      obtain ⟨leftBalanced, rightBalanced, -⟩ := balanced_node.mp balanced
      cases located : locate record with
      | eq =>
          simp only [remove, located]
          exact unlink_exact balanced
      | gt =>
          simp only [remove, located]
          exact (ihLeft leftBalanced).throughLeft balanced record
      | lt =>
          simp only [remove, located]
          exact (ihRight rightBalanced).throughRight balanced record

end Tree

end SpeechRom.Avl
