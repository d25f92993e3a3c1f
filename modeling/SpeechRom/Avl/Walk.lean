import SpeechRom.Avl.Tree

/-!
Ways through a tree: a cursor that holds the nodes still to come, taking a tree apart from its
first record on, and walks in three orders with a visitor that may stop.
-/

namespace SpeechRom.Avl

variable {α : Type}

/-- The records still to be given, each with the subtree that follows it. -/
abbrev Cursor (α : Type) := List (α × Tree α)

namespace Cursor

/-- Puts a tree's left spine on top of a cursor, its first record uppermost. -/
def descend (tree : Tree α) (pending : Cursor α) : Cursor α :=
  match tree with
  | .leaf => pending
  | .node _ left record right => descend left ((record, right) :: pending)

/-- A cursor at the first record of a tree. -/
def start (tree : Tree α) : Cursor α := descend tree []

/-- The next record and the cursor after it. -/
def next? : Cursor α → Option (α × Cursor α)
  | [] => none
  | (record, right) :: pending => some (record, descend right pending)

/-- The number of records still to come. -/
def remaining : Cursor α → Nat
  | [] => 0
  | (_, right) :: pending => right.size + 1 + remaining pending

theorem remaining_descend (tree : Tree α) (pending : Cursor α)
    : (descend tree pending).remaining = tree.size + pending.remaining := by
  induction tree generalizing pending with
  | leaf => simp [descend, Tree.size]
  | node balance left record right ihLeft =>
    simp only [descend, ihLeft, Tree.size, remaining]
    omega

/-- All records that a cursor still has to give. -/
def toList (cursor : Cursor α) : List α :=
  match cursor with
  | [] => []
  | (record, right) :: pending => record :: toList (descend right pending)
termination_by cursor.remaining
decreasing_by
  rw [remaining_descend, remaining]
  omega

end Cursor

namespace Tree

/-- Takes apart a tree and the trees that wait below it: a node waits until its left subtree is
gone, then gives its record and makes room for its right subtree.
-/
def dismantle (current : Tree α) (waiting : Cursor α) (records : List α) : List α :=
  match current with
  | .node _ left record right => dismantle left ((record, right) :: waiting) records
  | .leaf =>
    match waiting with
    | [] => records.reverse
    | (record, right) :: waiting => dismantle right waiting (record :: records)
termination_by (current.size + waiting.remaining, current.size)
decreasing_by
  · simp only [size, Cursor.remaining]
    rw [show left.size + (right.size + 1 + waiting.remaining)
      = left.size + 1 + right.size + waiting.remaining by omega]
    exact Prod.Lex.right _ (by omega)
  · exact Prod.Lex.left _ _ (by simp [size, Cursor.remaining])

/-- All records of a tree in order, by taking it apart. -/
def drain (tree : Tree α) : List α := tree.dismantle [] []

end Tree

/-- When a node is visited relative to its subtrees. -/
inductive WalkOrder where
  | nodeFirst
  | inOrder
  | nodeLast
deriving DecidableEq, Repr

namespace Tree

/-- The records in the order of a walk. -/
def inWalkOrder (order : WalkOrder) : Tree α → List α
  | leaf => []
  | node _ left record right =>
    match order with
    | .nodeFirst => record :: inWalkOrder order left ++ inWalkOrder order right
    | .inOrder => inWalkOrder order left ++ record :: inWalkOrder order right
    | .nodeLast => inWalkOrder order left ++ inWalkOrder order right ++ [record]

/-- Continues a walk unless it has been stopped. -/
def thenWalk {σ β : Type} (step : σ × Option β) (next : σ → σ × Option β) :
    σ × Option β :=
  match step with
  | (state, none) => next state
  | stopped => stopped

/-- Visits the nodes in the given order. The visitor carries a state and stops the walk by
giving a value.
-/
def walk {σ β : Type} (order : WalkOrder) (visit : σ → α → σ × Option β) (state : σ) :
    Tree α → σ × Option β
  | leaf => (state, none)
  | node _ left record right =>
    match order with
    | .nodeFirst =>
      thenWalk (visit state record) fun state =>
        thenWalk (walk order visit state left) fun state => walk order visit state right
    | .inOrder =>
      thenWalk (walk order visit state left) fun state =>
        thenWalk (visit state record) fun state => walk order visit state right
    | .nodeLast =>
      thenWalk (walk order visit state left) fun state =>
        thenWalk (walk order visit state right) fun state => visit state record

end Tree

end SpeechRom.Avl
