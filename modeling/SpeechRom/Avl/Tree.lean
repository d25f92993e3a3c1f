/-!
Height-balanced binary trees. Each node stores which of its subtrees is the taller one, and
insertion and removal repair the balance on their way up.
-/

namespace SpeechRom.Avl

-----------------------------------------------------------------------------------------
-- Trees
-----------------------------------------------------------------------------------------

/-- Which subtree of a node is taller. -/
inductive Balance where
  | leftHigh
  | even
  | rightHigh
deriving DecidableEq, Repr

/-- The letter that shows a balance. -/
def Balance.letter : Balance → String
  | leftHigh => "L"
  | even => "B"
  | rightHigh => "R"

/-- A binary tree whose nodes carry a record and a balance. -/
inductive Tree (α : Type) where
  | leaf
  | node (balance : Balance) (left : Tree α) (record : α) (right : Tree α)
deriving DecidableEq, Repr

namespace Tree

variable {α : Type}

/-- The number of nodes on the longest path from the root. -/
def height : Tree α → Nat
  | leaf => 0
  | node _ left _ right => 1 + max left.height right.height

/-- The number of nodes. -/
def size : Tree α → Nat
  | leaf => 0
  | node _ left _ right => left.size + 1 + right.size

/-- The records in order. -/
def toList : Tree α → List α
  | leaf => []
  | node _ left record right => left.toList ++ record :: right.toList

/-- Whether there are no nodes. -/
def isEmpty : Tree α → Bool
  | leaf => true
  | node .. => false

/-- A tree of one node. -/
def single (record : α) : Tree α := node .even leaf record leaf

-----------------------------------------------------------------------------------------
-- Rotations
-----------------------------------------------------------------------------------------

/-- Repairs a node whose left subtree is two levels taller than its right one. Also says whether
the result is lower than the node was before the repair. A left subtree that cannot be that tall
is left as it is.
-/
def fixLeftHeavy (left : Tree α) (record : α) (right : Tree α) : Tree α × Bool :=
  match left with
  | leaf => (node .leftHigh leaf record right, false)
  | node .leftHigh outer child inner =>
    (node .even outer child (node .even inner record right), true)
  | node .even outer child inner =>
    (node .rightHigh outer child (node .leftHigh inner record right), false)
  | node .rightHigh outer child leaf =>
    (node .leftHigh (node .rightHigh outer child leaf) record right, false)
  | node .rightHigh outer child (node .leftHigh near top far) =>
    (node .even (node .even outer child near) top (node .rightHigh far record right), true)
  | node .rightHigh outer child (node .even near top far) =>
    (node .even (node .even outer child near) top (node .even far record right), true)
  | node .rightHigh outer child (node .rightHigh near top far) =>
    (node .even (node .leftHigh outer child near) top (node .even far record right), true)

/-- Repairs a node whose right subtree is two levels taller than its left one. -/
def fixRightHeavy (left : Tree α) (record : α) (right : Tree α) : Tree α × Bool :=
  match right with
  | leaf => (node .rightHigh left record leaf, false)
  | node .rightHigh inner child outer =>
    (node .even (node .even left record inner) child outer, true)
  | node .even inner child outer =>
    (node .leftHigh (node .rightHigh left record inner) child outer, false)
  | node .leftHigh leaf child outer =>
    (node .rightHigh left record (node .leftHigh leaf child outer), false)
  | node .leftHigh (node .rightHigh far top near) child outer =>
    (node .even (node .leftHigh left record far) top (node .even near child outer), true)
  | node .leftHigh (node .even far top near) child outer =>
    (node .even (node .even left record far) top (node .even near child outer), true)
  | node .leftHigh (node .leftHigh far top near) child outer =>
    (node .even (node .even left record far) top (node .rightHigh near child outer), true)

/-- The node after its left subtree has become one level taller, and whether it is taller
itself.
-/
def leftGrew (balance : Balance) (left : Tree α) (record : α) (right : Tree α) :
    Tree α × Bool :=
  match balance with
  | .rightHigh => (node .even left record right, false)
  | .even => (node .leftHigh left record right, true)
  | .leftHigh => ((fixLeftHeavy left record right).1, false)

/-- The node after its right subtree has become one level taller, and whether it is taller
itself.
-/
def rightGrew (balance : Balance) (left : Tree α) (record : α) (right : Tree α) :
    Tree α × Bool :=
  match balance with
  | .leftHigh => (node .even left record right, false)
  | .even => (node .rightHigh left record right, true)
  | .rightHigh => ((fixRightHeavy left record right).1, false)

/-- The node after its left subtree has become one level lower, and whether it is lower
itself.
-/
def leftShrank (balance : Balance) (left : Tree α) (record : α) (right : Tree α) :
    Tree α × Bool :=
  match balance with
  | .leftHigh => (node .even left record right, true)
  | .even => (node .rightHigh left record right, false)
  | .rightHigh => fixRightHeavy left record right

/-- The node after its right subtree has become one level lower, and whether it is lower
itself.
-/
def rightShrank (balance : Balance) (left : Tree α) (record : α) (right : Tree α) :
    Tree α × Bool :=
  match balance with
  | .rightHigh => (node .even left record right, true)
  | .even => (node .leftHigh left record right, false)
  | .leftHigh => fixLeftHeavy left record right

-----------------------------------------------------------------------------------------
-- Insertion
-----------------------------------------------------------------------------------------

/-- What an insertion leaves in the place of a tree, and whether that is taller. There is no
answer when the record has been refused.
-/
structure Insertion (α : Type) where
  tree : Tree α
  grew : Option Bool

/-- The insertion of a record below a node on its left, carried on to the node itself. -/
def Insertion.throughLeft (below : Insertion α) (balance : Balance) (record : α)
    (right : Tree α) : Insertion α :=
  match below with
  | ⟨left, some true⟩ =>
    let grown := leftGrew balance left record right
    ⟨grown.1, some grown.2⟩
  | ⟨left, grew⟩ => ⟨node balance left record right, grew⟩

/-- The insertion of a record below a node on its right, carried on to the node itself. -/
def Insertion.throughRight (below : Insertion α) (balance : Balance) (left : Tree α)
    (record : α) : Insertion α :=
  match below with
  | ⟨right, some true⟩ =>
    let grown := rightGrew balance left record right
    ⟨grown.1, some grown.2⟩
  | ⟨right, grew⟩ => ⟨node balance left record right, grew⟩

/-- Inserts a record where comparing it with the nodes leads. It is refused when it compares
equal to a node on the way.
-/
def insert (order : α → α → Ordering) (new : α) : Tree α → Insertion α
  | leaf => ⟨single new, some true⟩
  | node balance left record right =>
    match order new record with
    | .eq => ⟨node balance left record right, none⟩
    | .lt => (insert order new left).throughLeft balance record right
    | .gt => (insert order new right).throughRight balance left record

-----------------------------------------------------------------------------------------
-- Removal
-----------------------------------------------------------------------------------------

/-- A removed record, and whether the tree that it was taken from is lower without it. -/
structure Removed (α : Type) where
  record : α
  shrank : Bool

/-- What a removal leaves in the place of a tree, and what it has removed, if anything. -/
structure Removal (α : Type) where
  rest : Tree α
  removed : Option (Removed α)

/-- The removal of a record below a node on its left, carried on to the node itself. -/
def Removal.throughLeft (below : Removal α) (balance : Balance) (record : α) (right : Tree α) :
    Removal α :=
  match below with
  | ⟨left, some ⟨removed, true⟩⟩ =>
    let rest := leftShrank balance left record right
    ⟨rest.1, some ⟨removed, rest.2⟩⟩
  | ⟨left, removed⟩ => ⟨node balance left record right, removed⟩

/-- The removal of a record below a node on its right, carried on to the node itself. -/
def Removal.throughRight (below : Removal α) (balance : Balance) (left : Tree α) (record : α) :
    Removal α :=
  match below with
  | ⟨right, some ⟨removed, true⟩⟩ =>
    let rest := rightShrank balance left record right
    ⟨rest.1, some ⟨removed, rest.2⟩⟩
  | ⟨right, removed⟩ => ⟨node balance left record right, removed⟩

/-- Removes the last record in order. -/
def removeLast : Tree α → Removal α
  | leaf => ⟨leaf, none⟩
  | node _ left record leaf => ⟨left, some ⟨record, true⟩⟩
  | node balance left record right => (removeLast right).throughRight balance left record

/-- Removes the first record in order. -/
def removeFirst : Tree α → Removal α
  | leaf => ⟨leaf, none⟩
  | node _ leaf record right => ⟨right, some ⟨record, true⟩⟩
  | node balance left record right => (removeFirst left).throughLeft balance record right

/-- Removes the record of a node. With two subtrees its place is taken by its neighbour in
order, from the left subtree when that is the taller one and else from the right subtree. The
node is taken out before the neighbour is fetched: without a neighbour it would be lost.
-/
def unlink (balance : Balance) (left : Tree α) (record : α) (right : Tree α) : Removal α :=
  match left, right with
  | leaf, right => ⟨right, some ⟨record, true⟩⟩
  | left, leaf => ⟨left, some ⟨record, true⟩⟩
  | left, right =>
    if balance = .leftHigh then
      match removeLast left with
      | ⟨_, none⟩ => ⟨leaf, none⟩
      | ⟨left, some ⟨neighbour, shrank⟩⟩ =>
        Removal.throughLeft ⟨left, some ⟨record, shrank⟩⟩ balance neighbour right
    else
      match removeFirst right with
      | ⟨_, none⟩ => ⟨leaf, none⟩
      | ⟨right, some ⟨neighbour, shrank⟩⟩ =>
        Removal.throughRight ⟨right, some ⟨record, shrank⟩⟩ balance left neighbour

/-- Removes the record that `locate` leads to. `locate` says how a record lies relative to the
one sought: a greater record sends the search to the left.
-/
def remove (locate : α → Ordering) : Tree α → Removal α
  | leaf => ⟨leaf, none⟩
  | node balance left record right =>
    match locate record with
    | .eq => unlink balance left record right
    | .gt => (remove locate left).throughLeft balance record right
    | .lt => (remove locate right).throughRight balance left record

-----------------------------------------------------------------------------------------
-- Search
-----------------------------------------------------------------------------------------

/-- The record that `locate` leads to. -/
def find? (locate : α → Ordering) : Tree α → Option α
  | leaf => none
  | node _ left record right =>
    match locate record with
    | .eq => some record
    | .gt => find? locate left
    | .lt => find? locate right

/-- Changes the record that `locate` leads to and keeps the shape of the tree. -/
def modify (locate : α → Ordering) (change : α → α) : Tree α → Tree α
  | leaf => leaf
  | node balance left record right =>
    match locate record with
    | .eq => node balance left (change record) right
    | .gt => node balance (modify locate change left) record right
    | .lt => node balance left record (modify locate change right)

end Tree

end SpeechRom.Avl
