import SpeechRom.Proofs.Avl.Heights
import SpeechRom.Proofs.Avl.Search

/-! What an insertion or a removal answers about the height of a tree is exact, and on the way no
rotation finds a subtree missing and no node is left without a neighbour. The second part is stated
by strict forms of the operations. These have no result where the operations get by without what
they look for, and on balanced trees they give the same results all the same.
-/

namespace SpeechRom.Avl

variable {α : Type}

namespace Tree

-----------------------------------------------------------------------------------------
-- Strict rotations
-----------------------------------------------------------------------------------------

/-- The repair of a node that is too tall on the left, only where there is something to rotate: a
left subtree, and a right subtree of it if it leans that way.
-/
def fixLeftHeavy? (left : Tree α) (record : α) (right : Tree α) : Option (Tree α × Bool) :=
  match left with
  | leaf => none
  | node .rightHigh _ _ leaf => none
  | left => some (fixLeftHeavy left record right)

def fixRightHeavy? (left : Tree α) (record : α) (right : Tree α) : Option (Tree α × Bool) :=
  match right with
  | leaf => none
  | node .leftHigh leaf _ _ => none
  | right => some (fixRightHeavy left record right)

/-- The strict form of `leftGrew`: a node that leaned to the left has to be repaired. -/
def leftGrew? (balance : Balance) (left : Tree α) (record : α) (right : Tree α) :
    Option (Tree α × Bool) :=
  match balance with
  | .rightHigh => some (node .even left record right, false)
  | .even => some (node .leftHigh left record right, true)
  | .leftHigh => (fixLeftHeavy? left record right).map fun repaired => (repaired.1, false)

def rightGrew? (balance : Balance) (left : Tree α) (record : α) (right : Tree α) :
    Option (Tree α × Bool) :=
  match balance with
  | .leftHigh => some (node .even left record right, false)
  | .even => some (node .rightHigh left record right, true)
  | .rightHigh => (fixRightHeavy? left record right).map fun repaired => (repaired.1, false)

def leftShrank? (balance : Balance) (left : Tree α) (record : α) (right : Tree α) :
    Option (Tree α × Bool) :=
  match balance with
  | .leftHigh => some (node .even left record right, true)
  | .even => some (node .rightHigh left record right, false)
  | .rightHigh => fixRightHeavy? left record right

def rightShrank? (balance : Balance) (left : Tree α) (record : α) (right : Tree α) :
    Option (Tree α × Bool) :=
  match balance with
  | .rightHigh => some (node .even left record right, true)
  | .even => some (node .leftHigh left record right, false)
  | .leftHigh => fixLeftHeavy? left record right

/-- A balanced left subtree that is two levels taller can be rotated. -/
theorem fixLeftHeavy?_eq {left right : Tree α} (leftBalanced : left.Balanced)
    (tall : left.height = right.height + 2) (record : α)
    : fixLeftHeavy? left record right = some (fixLeftHeavy left record right) := by
  unfold fixLeftHeavy?
  split
  -- A leaf is not tall, and a node without a right subtree does not lean to the right.
  case h_1 => simp at tall
  case h_2 => simp [Balance.Fits] at leftBalanced
  case h_3 => rfl

theorem fixRightHeavy?_eq {left right : Tree α} (rightBalanced : right.Balanced)
    (tall : right.height = left.height + 2) (record : α)
    : fixRightHeavy? left record right = some (fixRightHeavy left record right) := by
  unfold fixRightHeavy?
  split
  case h_1 => simp at tall
  case h_2 => simp [Balance.Fits] at rightBalanced
  case h_3 => rfl

/-- Only a node that leaned to the left is repaired, and its left subtree is two levels taller now.
-/
theorem leftGrew?_eq {balance : Balance} {left right : Tree α} {height : Nat}
    (leftBalanced : left.Balanced) (grew : left.height = height + 1)
    (fits : balance.Fits height right.height) (record : α)
    : leftGrew? balance left record right = some (leftGrew balance left record right) := by
  cases balance with
  | rightHigh => rfl
  | even => rfl
  | leftHigh =>
      simp only [Balance.Fits] at fits
      have repaired := fixLeftHeavy?_eq leftBalanced (show _ = right.height + 2 by omega) record
      rw [leftGrew?, repaired]
      rfl

theorem rightGrew?_eq {balance : Balance} {left right : Tree α} {height : Nat}
    (rightBalanced : right.Balanced) (grew : right.height = height + 1)
    (fits : balance.Fits left.height height) (record : α)
    : rightGrew? balance left record right = some (rightGrew balance left record right) := by
  cases balance with
  | leftHigh => rfl
  | even => rfl
  | rightHigh =>
      simp only [Balance.Fits] at fits
      have repaired := fixRightHeavy?_eq rightBalanced (show _ = left.height + 2 by omega) record
      rw [rightGrew?, repaired]
      rfl

theorem leftShrank?_eq {balance : Balance} {left right : Tree α} (rightBalanced : right.Balanced)
    (fits : balance.Fits (left.height + 1) right.height) (record : α)
    : leftShrank? balance left record right = some (leftShrank balance left record right) := by
  cases balance with
  | leftHigh => rfl
  | even => rfl
  | rightHigh =>
      simp only [Balance.Fits] at fits
      exact fixRightHeavy?_eq rightBalanced (by omega) record

theorem rightShrank?_eq {balance : Balance} {left right : Tree α} (leftBalanced : left.Balanced)
    (fits : balance.Fits left.height (right.height + 1)) (record : α)
    : rightShrank? balance left record right = some (rightShrank balance left record right) := by
  cases balance with
  | rightHigh => rfl
  | even => rfl
  | leftHigh =>
      simp only [Balance.Fits] at fits
      exact fixLeftHeavy?_eq leftBalanced (by omega) record

-----------------------------------------------------------------------------------------
-- Strict insertion
-----------------------------------------------------------------------------------------

def Insertion.throughLeft? (below : Insertion α) (balance : Balance) (record : α)
    (right : Tree α) : Option (Insertion α) :=
  match below with
  | ⟨left, some true⟩ =>
    (leftGrew? balance left record right).map fun grown => ⟨grown.1, some grown.2⟩
  | ⟨left, grew⟩ => some ⟨node balance left record right, grew⟩

def Insertion.throughRight? (below : Insertion α) (balance : Balance) (left : Tree α)
    (record : α) : Option (Insertion α) :=
  match below with
  | ⟨right, some true⟩ =>
    (rightGrew? balance left record right).map fun grown => ⟨grown.1, some grown.2⟩
  | ⟨right, grew⟩ => some ⟨node balance left record right, grew⟩

/-- The strict form of `insert`. There is no result when a rotation on the way finds nothing to
rotate; a record that is refused is a result.
-/
def insert? (order : α → α → Ordering) (new : α) : Tree α → Option (Insertion α)
  | leaf => some ⟨single new, some true⟩
  | node balance left record right =>
    match order new record with
    | .eq => some ⟨node balance left record right, none⟩
    | .lt => (insert? order new left).bind (·.throughLeft? balance record right)
    | .gt => (insert? order new right).bind (·.throughRight? balance left record)

theorem Insertion.Exact.throughLeft?_eq {below : Insertion α} {balance : Balance}
    {left right : Tree α} {record : α} (kept : below.Exact left)
    (before : (node balance left record right).Balanced)
    : below.throughLeft? balance record right
      = some (below.throughLeft balance record right) := by
  obtain ⟨-, -, fits⟩ := balanced_node.mp before
  obtain ⟨tree, _ | _ | _⟩ := below
  · rfl
  · rfl
  · rw [Insertion.throughLeft?, leftGrew?_eq kept.balanced (kept.grown rfl) fits]
    rfl

theorem Insertion.Exact.throughRight?_eq {below : Insertion α} {balance : Balance}
    {left right : Tree α} {record : α} (kept : below.Exact right)
    (before : (node balance left record right).Balanced)
    : below.throughRight? balance left record
      = some (below.throughRight balance left record) := by
  obtain ⟨-, -, fits⟩ := balanced_node.mp before
  obtain ⟨tree, _ | _ | _⟩ := below
  · rfl
  · rfl
  · rw [Insertion.throughRight?, rightGrew?_eq kept.balanced (kept.grown rfl) fits]
    rfl

/-- In a balanced tree every rotation of an insertion finds its subtrees, wherever the comparison
leads. Witness: the insertion below a node is exact, so a node is rotated only when its heights
are two levels apart.
-/
theorem insert?_eq (order : α → α → Ordering) (new : α) {tree : Tree α}
    (balanced : tree.Balanced)
    : tree.insert? order new = some (tree.insert order new) := by
  induction tree with
  | leaf => rfl
  | node balance left record right ihLeft ihRight =>
      obtain ⟨leftBalanced, rightBalanced, -⟩ := balanced_node.mp balanced
      rw [insert?, insert]
      cases order new record with
      | eq => rfl
      | lt =>
          simp only [ihLeft leftBalanced, Option.bind_some]
          exact (insert_exact order new leftBalanced).throughLeft?_eq balanced
      | gt =>
          simp only [ihRight rightBalanced, Option.bind_some]
          exact (insert_exact order new rightBalanced).throughRight?_eq balanced

-----------------------------------------------------------------------------------------
-- Strict removal
-----------------------------------------------------------------------------------------

def Removal.throughLeft? (below : Removal α) (balance : Balance) (record : α)
    (right : Tree α) : Option (Removal α) :=
  match below with
  | ⟨left, some ⟨removed, true⟩⟩ =>
    (leftShrank? balance left record right).map fun rest => ⟨rest.1, some ⟨removed, rest.2⟩⟩
  | ⟨left, removed⟩ => some ⟨node balance left record right, removed⟩

def Removal.throughRight? (below : Removal α) (balance : Balance) (left : Tree α)
    (record : α) : Option (Removal α) :=
  match below with
  | ⟨right, some ⟨removed, true⟩⟩ =>
    (rightShrank? balance left record right).map fun rest => ⟨rest.1, some ⟨removed, rest.2⟩⟩
  | ⟨right, removed⟩ => some ⟨node balance left record right, removed⟩

def removeLast? : Tree α → Option (Removal α)
  | leaf => some ⟨leaf, none⟩
  | node _ left record leaf => some ⟨left, some ⟨record, true⟩⟩
  | node balance left record right =>
    (removeLast? right).bind (·.throughRight? balance left record)

def removeFirst? : Tree α → Option (Removal α)
  | leaf => some ⟨leaf, none⟩
  | node _ leaf record right => some ⟨right, some ⟨record, true⟩⟩
  | node balance left record right =>
    (removeFirst? left).bind (·.throughLeft? balance record right)

/-- The strict form of `unlink`. A node with two subtrees has to find its neighbour. -/
def unlink? (balance : Balance) (left : Tree α) (record : α) (right : Tree α) :
    Option (Removal α) :=
  match left, right with
  | leaf, right => some ⟨right, some ⟨record, true⟩⟩
  | left, leaf => some ⟨left, some ⟨record, true⟩⟩
  | left, right =>
    if balance = .leftHigh then
      match removeLast? left with
      | some ⟨left, some ⟨neighbour, shrank⟩⟩ =>
        Removal.throughLeft? ⟨left, some ⟨record, shrank⟩⟩ balance neighbour right
      | _ => none
    else
      match removeFirst? right with
      | some ⟨right, some ⟨neighbour, shrank⟩⟩ =>
        Removal.throughRight? ⟨right, some ⟨record, shrank⟩⟩ balance left neighbour
      | _ => none

/-- The strict form of `remove`. A search that finds no record is a result. -/
def remove? (locate : α → Ordering) : Tree α → Option (Removal α)
  | leaf => some ⟨leaf, none⟩
  | node balance left record right =>
    match locate record with
    | .eq => unlink? balance left record right
    | .gt => (remove? locate left).bind (·.throughLeft? balance record right)
    | .lt => (remove? locate right).bind (·.throughRight? balance left record)

theorem Removal.Exact.throughLeft?_eq {below : Removal α} {balance : Balance}
    {left right : Tree α} {old : α} (kept : below.Exact left)
    (before : (node balance left old right).Balanced) (record : α)
    : below.throughLeft? balance record right
      = some (below.throughLeft balance record right) := by
  obtain ⟨-, rightBalanced, fits⟩ := balanced_node.mp before
  obtain ⟨rest, _ | ⟨gone, _ | _⟩⟩ := below
  · rfl
  · rfl
  · rw [Removal.throughLeft?, leftShrank?_eq rightBalanced (kept.height ▸ fits)]
    rfl

theorem Removal.Exact.throughRight?_eq {below : Removal α} {balance : Balance}
    {left right : Tree α} {old : α} (kept : below.Exact right)
    (before : (node balance left old right).Balanced) (record : α)
    : below.throughRight? balance left record
      = some (below.throughRight balance left record) := by
  obtain ⟨leftBalanced, -, fits⟩ := balanced_node.mp before
  obtain ⟨rest, _ | ⟨gone, _ | _⟩⟩ := below
  · rfl
  · rfl
  · rw [Removal.throughRight?, rightShrank?_eq leftBalanced (kept.height ▸ fits)]
    rfl

theorem removeLast?_eq {tree : Tree α} (balanced : tree.Balanced)
    : removeLast? tree = some (removeLast tree) := by
  induction tree with
  | leaf => rfl
  | node balance left record right _ ihRight =>
      obtain ⟨-, rightBalanced, -⟩ := balanced_node.mp balanced
      cases right with
      | leaf => rfl
      | node =>
          simp only [removeLast?, removeLast, ihRight rightBalanced, Option.bind_some]
          exact (removeLast_exact rightBalanced).throughRight?_eq balanced record

theorem removeFirst?_eq {tree : Tree α} (balanced : tree.Balanced)
    : removeFirst? tree = some (removeFirst tree) := by
  induction tree with
  | leaf => rfl
  | node balance left record right ihLeft _ =>
      obtain ⟨leftBalanced, -, -⟩ := balanced_node.mp balanced
      cases left with
      | leaf => rfl
      | node =>
          simp only [removeFirst?, removeFirst, ihLeft leftBalanced, Option.bind_some]
          exact (removeFirst_exact leftBalanced).throughLeft?_eq balanced record

/-- With two subtrees and the left one taller, the node goes on with the last record of the left
subtree.
-/
theorem unlink?_fromLeft {left right rest : Tree α} {neighbour : α} {shrank : Bool}
    (leftPresent : left ≠ leaf) (rightPresent : right ≠ leaf)
    (fetched : removeLast? left = some ⟨rest, some ⟨neighbour, shrank⟩⟩) (record : α)
    : unlink? .leftHigh left record right
      = Removal.throughLeft? ⟨rest, some ⟨record, shrank⟩⟩ .leftHigh neighbour right := by
  obtain _ | _ := left
  · exact absurd rfl leftPresent
  obtain _ | _ := right
  · exact absurd rfl rightPresent
  simp only [unlink?, if_true, fetched]

theorem unlink?_fromRight {balance : Balance} {left right rest : Tree α} {neighbour : α}
    {shrank : Bool} (notLeftHigh : balance ≠ .leftHigh) (leftPresent : left ≠ leaf)
    (rightPresent : right ≠ leaf)
    (fetched : removeFirst? right = some ⟨rest, some ⟨neighbour, shrank⟩⟩) (record : α)
    : unlink? balance left record right
      = Removal.throughRight? ⟨rest, some ⟨record, shrank⟩⟩ balance left neighbour := by
  obtain _ | _ := left
  · exact absurd rfl leftPresent
  obtain _ | _ := right
  · exact absurd rfl rightPresent
  simp only [unlink?, if_neg notLeftHigh, fetched]

/-- A node of a balanced tree finds its neighbour, and the rotations on the way to it and at the
node find their subtrees. Witness: the neighbour comes from a subtree that is no leaf, and to the
node its removal is like one of the node's own record.
-/
theorem unlink?_eq {balance : Balance} {left right : Tree α} {record : α}
    (balanced : (node balance left record right).Balanced)
    : unlink? balance left record right = some (unlink balance left record right) := by
  obtain ⟨leftBalanced, rightBalanced, -⟩ := balanced_node.mp balanced
  by_cases leftPresent : left = leaf
  · subst leftPresent
    rfl
  by_cases rightPresent : right = leaf
  · subst rightPresent
    cases left <;> rfl
  by_cases high : balance = .leftHigh
  · subst high
    -- Fetching the neighbour changes only the left subtree, so the node is still the balanced one.
    obtain ⟨neighbour, shrank, removed, -, eq⟩ :=
      unlink_fromLeft leftPresent rightPresent record
    have fetched : removeLast? left = some ⟨(removeLast left).rest, some ⟨neighbour, shrank⟩⟩ := by
      rw [removeLast?_eq leftBalanced, ← removed]
    rw [eq, unlink?_fromLeft leftPresent rightPresent fetched]
    exact ((removeLast_exact leftBalanced).exchange removed record).throughLeft?_eq balanced
      neighbour
  · obtain ⟨neighbour, shrank, removed, -, eq⟩ :=
      unlink_fromRight high leftPresent rightPresent record
    have fetched
        : removeFirst? right = some ⟨(removeFirst right).rest, some ⟨neighbour, shrank⟩⟩ := by
      rw [removeFirst?_eq rightBalanced, ← removed]
    rw [eq, unlink?_fromRight high leftPresent rightPresent fetched]
    exact ((removeFirst_exact rightBalanced).exchange removed record).throughRight?_eq balanced
      neighbour

theorem remove?_eq (locate : α → Ordering) {tree : Tree α} (balanced : tree.Balanced)
    : tree.remove? locate = some (tree.remove locate) := by
  induction tree with
  | leaf => rfl
  | node balance left record right ihLeft ihRight =>
      obtain ⟨leftBalanced, rightBalanced, -⟩ := balanced_node.mp balanced
      rw [remove?, remove]
      cases locate record with
      | eq => exact unlink?_eq balanced
      | gt =>
          simp only [ihLeft leftBalanced, Option.bind_some]
          exact (remove_exact locate leftBalanced).throughLeft?_eq balanced record
      | lt =>
          simp only [ihRight rightBalanced, Option.bind_some]
          exact (remove_exact locate rightBalanced).throughRight?_eq balanced record

-----------------------------------------------------------------------------------------
-- Answers
-----------------------------------------------------------------------------------------

/-- There is an answer exactly when the record was accepted. It is "taller" exactly when the tree
has become one level taller, and "not taller" exactly when the record was accepted and the height is
the old one.
-/
structure Insertion.TellsRise (insertion : Insertion α) (before : Tree α) (accepted : Prop)
    : Prop where
  answered : insertion.grew ≠ none ↔ accepted
  risen : insertion.grew = some true ↔ insertion.tree.height = before.height + 1
  level : insertion.grew = some false ↔ accepted ∧ insertion.tree.height = before.height

/-- There is an answer exactly when a record was found. It is "lower" exactly when the tree has
become one level lower, and "not lower" exactly when a record was found and the height is the old
one.
-/
structure Removal.TellsFall (removal : Removal α) (before : Tree α) (found : Prop) : Prop where
  answered : removal.removed ≠ none ↔ found
  fallen : removal.removed.map (·.shrank) = some true ↔ removal.rest.height + 1 = before.height
  level
    : removal.removed.map (·.shrank) = some false
      ↔ found ∧ removal.rest.height = before.height

theorem Insertion.Exact.tellsRise {insertion : Insertion α} {before : Tree α} {accepted : Prop}
    (exact : insertion.Exact before) (answers : insertion.grew ≠ none ↔ accepted)
    : insertion.TellsRise before accepted := by
  rw [← answers]
  obtain ⟨tree, _ | _ | _⟩ := insertion
  · have height := exact.level (by simp)
    constructor <;> simp [height]
  · have height := exact.level (by simp)
    constructor <;> simp [height]
  · have height := exact.grown rfl
    constructor <;> simp [height]

theorem Removal.Exact.tellsFall {removal : Removal α} {before : Tree α} {found : Prop}
    (exact : removal.Exact before) (answers : removal.record? ≠ none ↔ found)
    : removal.TellsFall before found := by
  rw [← answers]
  have fall := exact.height
  obtain ⟨rest, _ | ⟨gone, _ | _⟩⟩ := removal
  · have height : rest.height = before.height := fall
    constructor <;> simp [height, record?]
  · have height : rest.height = before.height := fall
    constructor <;> simp [height, record?]
  · have height : rest.height + 1 = before.height := fall
    constructor <;> simp [← height, record?]

/-- An insertion is refused exactly when a search that goes the same way ends at a record. -/
theorem insert_accepted_iff (order : α → α → Ordering) (new : α) (tree : Tree α)
    : (tree.insert order new).grew ≠ none
      ↔ tree.find? (fun record => (order new record).swap) = none := by
  induction tree with
  | leaf => simp [insert, find?]
  | node balance left record right ihLeft ihRight =>
      cases compared : order new record with
      | eq => simp [insert, find?, compared]
      | lt => simpa [insert, find?, compared] using ihLeft
      | gt => simpa [insert, find?, compared] using ihRight

/-- The last record of a tree is found exactly when there are nodes. -/
theorem removeLast_found_iff (tree : Tree α)
    : (removeLast tree).record? ≠ none ↔ tree ≠ leaf := by
  constructor
  · rintro found rfl
    exact found rfl
  · intro present
    obtain ⟨last, found, -⟩ := removeLast_spec present
    simp [found]

theorem removeFirst_found_iff (tree : Tree α)
    : (removeFirst tree).record? ≠ none ↔ tree ≠ leaf := by
  constructor
  · rintro found rfl
    exact found rfl
  · intro present
    obtain ⟨first, found, -⟩ := removeFirst_spec present
    simp [found]

/-- In a balanced tree the answers about heights are exact, whatever the record and the comparison.
An insertion answers "taller" exactly when the tree has become one level taller, and "not taller"
exactly when the record is accepted and the height is the old one. A removal, an unlinking of the
root and a removal of the last or the first record answer in the same way about a tree that becomes
lower. All of them agree with their strict forms: no rotation finds a subtree missing, and no node
with two subtrees is left without a neighbour.
-/
theorem answers_tell_heights {tree : Tree α} (balanced : tree.Balanced)
    : (∀ (order : α → α → Ordering) (new : α),
        (tree.insert order new).TellsRise tree
          (tree.find? (fun record => (order new record).swap) = none)
        ∧ tree.insert? order new = some (tree.insert order new))
      ∧ (∀ locate : α → Ordering,
        (tree.remove locate).TellsFall tree (tree.find? locate ≠ none)
        ∧ tree.remove? locate = some (tree.remove locate))
      ∧ (∀ (balance : Balance) (left : Tree α) (record : α) (right : Tree α),
        tree = node balance left record right
        → (unlink balance left record right).TellsFall tree True
          ∧ unlink? balance left record right = some (unlink balance left record right))
      ∧ ((removeLast tree).TellsFall tree (tree ≠ leaf)
        ∧ removeLast? tree = some (removeLast tree))
      ∧ ((removeFirst tree).TellsFall tree (tree ≠ leaf)
        ∧ removeFirst? tree = some (removeFirst tree)) := by
  refine ⟨fun order new => ?_, fun locate => ?_, ?_, ?_, ?_⟩
  · exact ⟨(insert_exact order new balanced).tellsRise (insert_accepted_iff order new tree),
      insert?_eq order new balanced⟩
  · have finds : (tree.remove locate).record? ≠ none ↔ tree.find? locate ≠ none := by
      rw [record?_remove]
    exact ⟨(remove_exact locate balanced).tellsFall finds, remove?_eq locate balanced⟩
  · rintro balance left record right rfl
    have finds : (unlink balance left record right).record? ≠ none ↔ True := by
      simp [unlink_spec]
    exact ⟨(unlink_exact balanced).tellsFall finds, unlink?_eq balanced⟩
  · exact ⟨(removeLast_exact balanced).tellsFall (removeLast_found_iff tree),
      removeLast?_eq balanced⟩
  · exact ⟨(removeFirst_exact balanced).tellsFall (removeFirst_found_iff tree),
      removeFirst?_eq balanced⟩

/-- Removing the five needs a rotation in both trees. It leaves the height as it is when the left
subtree is even, and makes the tree lower when that leans to the left. A tree that says of itself
that it leans towards a leaf has no strict removal.
-/
theorem answers_tell_heights_rotated
    : let tree (left : Tree Nat) : Tree Nat := node .leftHigh left 4 (single 5)
      let even : Tree Nat := node .even (single 1) 2 (single 3)
      let leaning : Tree Nat := node .leftHigh (single 1) 2 leaf
      (tree even).Balanced
      ∧ ((tree even).insert compare 0).grew = some false
      ∧ ((tree even).remove (compare · 5)).removed.map (·.shrank) = some false
      ∧ (tree even).remove? (compare · 5) = some ((tree even).remove (compare · 5))
      ∧ (unlink .leftHigh even 4 (single 5)).removed.map (·.shrank) = some false
      ∧ (tree leaning).Balanced
      ∧ ((tree leaning).remove (compare · 5)).removed.map (·.shrank) = some true
      ∧ (removeFirst (tree leaning)).removed.map (·.shrank) = some true
      ∧ (remove? (compare · 1) (node .rightHigh (single 1) 2 leaf)).isNone := by
  intro tree even leaning
  have evenBalanced : (tree even).Balanced := by simp [tree, even, single, Balance.Fits]
  have leaningBalanced : (tree leaning).Balanced := by
    simp [tree, leaning, single, Balance.Fits]
  obtain ⟨inserts, removes, unlinks, -, -⟩ := answers_tell_heights evenBalanced
  obtain ⟨-, leaningRemoves, -, -, leaningFirst⟩ := answers_tell_heights leaningBalanced
  refine ⟨evenBalanced, (inserts compare 0).1.level.mpr (by decide +kernel),
    (removes (compare · 5)).1.level.mpr (by decide +kernel), (removes (compare · 5)).2,
    (unlinks .leftHigh even 4 (single 5) rfl).1.level.mpr (by decide +kernel), leaningBalanced,
    (leaningRemoves (compare · 5)).1.fallen.mpr (by decide +kernel),
    leaningFirst.1.fallen.mpr (by decide +kernel), by decide +kernel⟩

end Tree

end SpeechRom.Avl
