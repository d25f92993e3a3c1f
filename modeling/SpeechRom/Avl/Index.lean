import SpeechRom.Avl.Walk

/-!
Indexes: a balanced tree together with the comparison that orders it and the number of its
records. The comparison can be missing, and it can be replaced while records are present.
-/

namespace SpeechRom.Avl

-----------------------------------------------------------------------------------------
-- Errors
-----------------------------------------------------------------------------------------

/-- Why an index refuses an operation. -/
inductive IndexError where
  | duplicateKey
  | notFound
  | noComparison
  | comparisonChanged
deriving DecidableEq, Repr

namespace IndexError

def message : IndexError → String
  | duplicateKey => "Key already in tree"
  | notFound => "Key not found in tree"
  | noComparison => "No comparison function set"
  | comparisonChanged => "Comparison function changed on non-empty tree"

/-- Whether the operation was carried out all the same. -/
def isWarning : IndexError → Bool
  | comparisonChanged => true
  | _ => false

end IndexError

-----------------------------------------------------------------------------------------
-- Indexes
-----------------------------------------------------------------------------------------

/-- How two records compare. -/
abbrev Comparison (α : Type) := α → α → Ordering

/-- Records in a balanced tree. -/
structure Index (α : Type) where
  root : Tree α := .leaf
  order : Option (Comparison α) := none
  size : Nat := 0

namespace Index

variable {α : Type}

/-- An index without records, ordered by a comparison. -/
def ordered (order : Comparison α) : Index α := { order := some order }

/-- The records in order. -/
def toList (index : Index α) : List α := index.root.toList

/-- The number of levels. -/
def height (index : Index α) : Nat := index.root.height

/-- Whether the index has no nodes. -/
def isEmpty (index : Index α) : Bool := index.root.isEmpty

/-- Whether there is a comparison. -/
def isOrdered (index : Index α) : Bool := index.order.isSome

/-- Installs a comparison. With records present it is installed as well, but their order is not
checked again and the change is reported.
-/
def setOrder (index : Index α) (order : Comparison α) : Index α × Except IndexError Unit :=
  ({ index with order := some order },
    if index.isEmpty then .ok () else .error .comparisonChanged)

/-- Inserts a record that compares equal to none on its way. The index is what is there
afterwards, also when the record is refused.
-/
def tryInsert (index : Index α) (record : α) : Index α × Except IndexError Unit :=
  match index.order with
  | none => (index, .error .noComparison)
  | some order =>
    match index.root.insert order record with
    | ⟨root, none⟩ => ({ index with root }, .error .duplicateKey)
    | ⟨root, some _⟩ => ({ index with root, size := index.size + 1 }, .ok ())

/-- Removes the record that compares equal to a probe and gives it back. The index is what is
there afterwards, also when there is no such record.
-/
def tryDetach (index : Index α) (probe : α) : Index α × Except IndexError α :=
  match index.order with
  | none => (index, .error .noComparison)
  | some order =>
    match index.root.remove (order · probe) with
    | ⟨root, none⟩ => ({ index with root }, .error .notFound)
    | ⟨root, some removed⟩ =>
      ({ index with root, size := index.size - 1 }, .ok removed.record)

/-- Removes the record that compares equal to a probe. -/
def tryDelete (index : Index α) (probe : α) : Index α × Except IndexError Unit :=
  ((index.tryDetach probe).1, (index.tryDetach probe).2.map fun _ => ())

/-- The index with one more record, unless it is refused. -/
def insert (index : Index α) (record : α) : Except IndexError (Index α) :=
  match index.tryInsert record with
  | (_, .error error) => .error error
  | (index, .ok _) => .ok index

/-- The record that compares equal to a probe and the index without it, unless there is none. -/
def detach (index : Index α) (probe : α) : Except IndexError (α × Index α) :=
  match index.tryDetach probe with
  | (_, .error error) => .error error
  | (index, .ok record) => .ok (record, index)

/-- The index without the record that compares equal to a probe, unless there is none. -/
def delete (index : Index α) (probe : α) : Except IndexError (Index α) :=
  match index.tryDelete probe with
  | (_, .error error) => .error error
  | (index, .ok _) => .ok index

/-- Removes all records and keeps the comparison. -/
def clear (index : Index α) : Index α := { index with root := .leaf, size := 0 }

/-- All records in order, leaving an index without records and without a comparison. -/
def takeRecords (index : Index α) : List α × Index α := (index.root.drain, {})

-----------------------------------------------------------------------------------------
-- Search
-----------------------------------------------------------------------------------------

/-- An answer of a search as a result. -/
def found (record : Option α) : Except IndexError α :=
  match record with
  | none => .error .notFound
  | some record => .ok record

/-- The record that compares equal to a probe. -/
def search (index : Index α) (probe : α) : Except IndexError α :=
  match index.order with
  | none => .error .noComparison
  | some order => found (index.root.find? (order · probe))

/-- The record that `locate` leads to, where `locate` agrees with the order of the records. -/
def searchBy (index : Index α) (locate : α → Ordering) : Except IndexError α :=
  if index.order.isNone then .error .noComparison else found (index.root.find? locate)

/-- The records in order, as a cursor gives them. -/
def records (index : Index α) : List α := (Cursor.start index.root).toList

/-- The first record in order that `locate` calls equal, whatever the order of the records. -/
def searchLinear (index : Index α) (locate : α → Ordering) : Except IndexError α :=
  found (index.records.find? fun record => locate record == .eq)

/-- Visits the records in the given order until the visitor stops. -/
def walk {σ β : Type} (index : Index α) (order : WalkOrder) (visit : σ → α → σ × Option β)
    (state : σ) : σ × Option β :=
  index.root.walk order visit state

-----------------------------------------------------------------------------------------
-- Soundness check
-----------------------------------------------------------------------------------------

/-- The balance that two heights call for. -/
def balanceOf (left right : Nat) : Balance :=
  match compare left right with
  | .gt => .leftHigh
  | .eq => .even
  | .lt => .rightHigh

/-- The height of a tree all of whose nodes are within one level of balance and say so. -/
def checkedHeight? : Tree α → Option Nat
  | .leaf => some 0
  | .node balance left _ right =>
    match checkedHeight? left, checkedHeight? right with
    | some left, some right =>
      if left ≤ right + 1 ∧ right ≤ left + 1 ∧ balance = balanceOf left right then
        some (1 + max left right)
      else none
    | _, _ => none

/-- Whether each record compares less than the one after it. -/
def isIncreasing (order : Comparison α) : List α → Bool
  | [] => true
  | [_] => true
  | first :: second :: rest => order first second == .lt && isIncreasing order (second :: rest)

/-- Whether balances, order and size are all as they should be. Without a comparison only the
index without records is.
-/
def isSound (index : Index α) : Bool :=
  let ordered :=
    match index.order with
    | some order => isIncreasing order index.records
    | none => index.isEmpty
  (checkedHeight? index.root).isSome && ordered && index.records.length == index.size

-----------------------------------------------------------------------------------------
-- Text
-----------------------------------------------------------------------------------------

/-- One line for each node in order, indented by its depth. -/
def nodeLines (showRecord : α → String) (depth : Nat) : Tree α → List String
  | .leaf => []
  | .node balance left record right =>
    nodeLines showRecord (depth + 1) left ++
      (String.join (List.replicate depth "  .") ++ "(" ++ balance.letter ++ ") " ++
        showRecord record) ::
      nodeLines showRecord (depth + 1) right

/-- The tree on its side, between a heading and a closing line. -/
def dump (showRecord : α → String) (index : Index α) : List String :=
  s!"--start dump ({index.size} records, height {index.height})" ::
    nodeLines showRecord 0 index.root ++ ["--end dump"]

end Index

end SpeechRom.Avl
