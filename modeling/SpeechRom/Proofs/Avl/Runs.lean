import SpeechRom.Proofs.Avl.Heights

/-! Runs of changes to an index. Comparisons may be unlawful and may be replaced between any two
changes: balances, the number of records and the records themselves never suffer.
-/

namespace SpeechRom.Avl

variable {α : Type}

/-- A change to the records of an index. -/
inductive Change (α : Type) where
  | insert (record : α)
  | delete (probe : α)
  | detach (probe : α)
  | clear

/-- A change to the records of an index, or a new comparison for it. -/
inductive Request (α : Type) where
  | change (change : Change α)
  | setOrder (order : Comparison α)

namespace Index

/-- The index after a change, and its answer. Only a detached record is given back. -/
def apply (index : Index α) : Change α → Index α × Except IndexError (Option α)
  | .insert record =>
    ((index.tryInsert record).1, (index.tryInsert record).2.map fun _ => none)
  | .delete probe => ((index.tryDelete probe).1, (index.tryDelete probe).2.map fun _ => none)
  | .detach probe => ((index.tryDetach probe).1, (index.tryDetach probe).2.map some)
  | .clear => (index.clear, .ok none)

/-- The index after changes in turn, those that were refused included. -/
def run (index : Index α) (changes : List (Change α)) : Index α :=
  changes.foldl (fun index change => (index.apply change).1) index

/-- The index after a request. -/
def accept (index : Index α) : Request α → Index α
  | .change change => (index.apply change).1
  | .setOrder order => (index.setOrder order).1

/-- The index after requests in turn. -/
def serve (index : Index α) (requests : List (Request α)) : Index α :=
  requests.foldl accept index

/-- What holds of an index whatever its comparison says: balances are right, and the size is the
number of nodes.
-/
structure Sturdy (index : Index α) : Prop where
  balanced : index.root.Balanced
  counted : index.size = index.root.size

/-- The three ways in which an insertion can end. -/
theorem tryInsert_cases (index : Index α) (record : α)
    : (index.order = none ∧ index.tryInsert record = (index, .error .noComparison))
      ∨ (∃ order, index.order = some order
        ∧ (index.root.insert order record).grew = none
        ∧ index.tryInsert record = (index, .error .duplicateKey))
      ∨ (∃ order, index.order = some order
        ∧ (index.root.insert order record).grew ≠ none
        ∧ index.tryInsert record
          = ({ index with
                root := (index.root.insert order record).tree
                size := index.size + 1 }, .ok ())) := by
  obtain ⟨root, order, size⟩ := index
  cases order with
  | none => exact .inl ⟨rfl, rfl⟩
  | some order =>
      refine .inr ?_
      have unchanged := Tree.insert_refused order record root
      cases inserted : root.insert order record with
      | mk after grew =>
          rw [inserted] at unchanged
          cases grew with
          | none =>
              obtain rfl : after = root := unchanged rfl
              refine .inl ⟨order, rfl, by rw [inserted], ?_⟩
              simp only [tryInsert, inserted]
          | some grew =>
              refine .inr ⟨order, rfl, by simp [inserted], ?_⟩
              simp only [tryInsert, inserted]

theorem tryDetach_cases (index : Index α) (probe : α)
    : (index.order = none ∧ index.tryDetach probe = (index, .error .noComparison))
      ∨ (∃ order, index.order = some order
        ∧ (index.root.remove (order · probe)).record? = none
        ∧ index.tryDetach probe = (index, .error .notFound))
      ∨ (∃ order removed, index.order = some order
        ∧ (index.root.remove (order · probe)).record? = some removed
        ∧ index.tryDetach probe
          = ({ index with
                root := (index.root.remove (order · probe)).rest
                size := index.size - 1 }, .ok removed)) := by
  obtain ⟨root, order, size⟩ := index
  cases order with
  | none => exact .inl ⟨rfl, rfl⟩
  | some order =>
      refine .inr ?_
      have unchanged := Tree.remove_missing (order · probe) root
      cases removal : root.remove (order · probe) with
      | mk rest removed =>
          rw [removal] at unchanged
          cases removed with
          | none =>
              obtain rfl : rest = root := unchanged rfl
              refine .inl ⟨order, rfl, by rw [removal]; rfl, ?_⟩
              simp only [tryDetach, removal]
          | some removed =>
              refine .inr ⟨order, removed.record, rfl, by rw [removal]; rfl, ?_⟩
              simp only [tryDetach, removal]

/-- A refused insertion leaves the index as it was. -/
theorem tryInsert_error {index : Index α} {record : α} {error : IndexError}
    (refused : (index.tryInsert record).2 = .error error)
    : (index.tryInsert record).1 = index := by
  rcases index.tryInsert_cases record with ⟨-, ended⟩ | ⟨_, -, -, ended⟩ | ⟨_, -, -, ended⟩
  · rw [ended]
  · rw [ended]
  · rw [ended] at refused
    cases refused

theorem tryDetach_error {index : Index α} {probe : α} {error : IndexError}
    (refused : (index.tryDetach probe).2 = .error error)
    : (index.tryDetach probe).1 = index := by
  rcases index.tryDetach_cases probe with ⟨-, ended⟩ | ⟨_, -, -, ended⟩ | ⟨_, _, -, -, ended⟩
  · rw [ended]
  · rw [ended]
  · rw [ended] at refused
    cases refused

/-- A change that is refused leaves the index as it was, node for node. -/
theorem apply_error {index : Index α} {change : Change α} {error : IndexError}
    (refused : (index.apply change).2 = .error error)
    : (index.apply change).1 = index := by
  cases change with
  | insert record =>
      cases answer : (index.tryInsert record).2 with
      | error _ => exact tryInsert_error answer
      | ok _ =>
          rw [apply, answer] at refused
          cases refused
  | delete probe =>
      cases answer : (index.tryDetach probe).2 with
      | error _ => exact tryDetach_error answer
      | ok _ =>
          rw [apply, tryDelete, answer] at refused
          cases refused
  | detach probe =>
      cases answer : (index.tryDetach probe).2 with
      | error _ => exact tryDetach_error answer
      | ok _ =>
          rw [apply, answer] at refused
          cases refused
  | clear => cases refused

/-- An accepted record stands at one place among the old ones. -/
theorem tryInsert_ok {index : Index α} {record : α}
    (accepted : (index.tryInsert record).2 = .ok ())
    : ∃ before after,
        index.toList = before ++ after
        ∧ (index.tryInsert record).1.toList = before ++ record :: after := by
  rcases index.tryInsert_cases record with ⟨-, ended⟩ | ⟨_, -, -, ended⟩ | ⟨order, -, grew, ended⟩
  · rw [ended] at accepted
    cases accepted
  · rw [ended] at accepted
    cases accepted
  · rw [ended]
    exact Tree.toList_insert order record index.root grew

/-- A detached record was at one place among the old ones, and the others remain. -/
theorem tryDetach_ok {index : Index α} {probe removed : α}
    (detached : (index.tryDetach probe).2 = .ok removed)
    : ∃ before after,
        index.toList = before ++ removed :: after
        ∧ (index.tryDetach probe).1.toList = before ++ after := by
  rcases index.tryDetach_cases probe with
    ⟨-, ended⟩ | ⟨_, -, -, ended⟩ | ⟨order, found, -, taken, ended⟩
  · rw [ended] at detached
    cases detached
  · rw [ended] at detached
    cases detached
  · rw [ended] at detached ⊢
    obtain rfl : found = removed := Except.ok.inj detached
    exact (Tree.toList_remove (order · probe) index.root taken).2

/-- An insertion keeps an index sturdy: accepted, the record adds one node to a tree that is
balanced again; refused, nothing changes.
-/
theorem Sturdy.tryInsert {index : Index α} (sturdy : index.Sturdy) (record : α)
    : (index.tryInsert record).1.Sturdy := by
  rcases index.tryInsert_cases record with ⟨-, ended⟩ | ⟨_, -, -, ended⟩ | ⟨order, -, grew, ended⟩
  · rw [ended]
    exact sturdy
  · rw [ended]
    exact sturdy
  · rw [ended]
    refine ⟨(Tree.insert_exact order record sturdy.balanced).balanced, ?_⟩
    obtain ⟨before, after, old, new⟩ := Tree.toList_insert order record index.root grew
    have counted := sturdy.counted
    simp only [← Tree.length_toList, old, new, List.length_append, List.length_cons]
      at counted ⊢
    omega

theorem Sturdy.tryDetach {index : Index α} (sturdy : index.Sturdy) (probe : α)
    : (index.tryDetach probe).1.Sturdy := by
  rcases index.tryDetach_cases probe with
    ⟨-, ended⟩ | ⟨_, -, -, ended⟩ | ⟨order, found, -, taken, ended⟩
  · rw [ended]
    exact sturdy
  · rw [ended]
    exact sturdy
  · rw [ended]
    refine ⟨(Tree.remove_exact (order · probe) sturdy.balanced).balanced, ?_⟩
    obtain ⟨-, before, after, old, rest⟩ := Tree.toList_remove (order · probe) index.root taken
    have counted := sturdy.counted
    simp only [← Tree.length_toList, old, rest, List.length_append, List.length_cons]
      at counted ⊢
    omega

theorem Sturdy.apply {index : Index α} (sturdy : index.Sturdy) (change : Change α)
    : (index.apply change).1.Sturdy := by
  cases change with
  | insert record => exact sturdy.tryInsert record
  | delete probe => exact sturdy.tryDetach probe
  | detach probe => exact sturdy.tryDetach probe
  | clear => exact ⟨trivial, rfl⟩

/-- Requests in turn keep an index sturdy, by induction on them. A new comparison does not touch
the tree.
-/
theorem Sturdy.serve {index : Index α} (sturdy : index.Sturdy) (requests : List (Request α))
    : (index.serve requests).Sturdy := by
  induction requests generalizing index with
  | nil => exact sturdy
  | cons request rest ih =>
      cases request with
      | change change => exact ih (sturdy.apply change)
      | setOrder order => exact ih ⟨sturdy.balanced, sturdy.counted⟩

/-- Whatever the comparisons say and whenever they are replaced, an index that has been served any
requests is balanced with balances that say so and counts its nodes. From there an accepted
record is added at one place, a detached record is taken from one place, and a change that is
refused leaves the index as it is.
-/
theorem serve_keeps_balances_and_records (order : Option (Comparison α))
    (requests : List (Request α))
    : let index := Index.serve { order } requests
      index.root.Balanced
      ∧ index.size = index.root.size
      ∧ (∀ record, (index.tryInsert record).2 = .ok ()
          → ∃ before after,
              index.toList = before ++ after
              ∧ (index.tryInsert record).1.toList = before ++ record :: after)
      ∧ (∀ probe removed, (index.tryDetach probe).2 = .ok removed
          → ∃ before after,
              index.toList = before ++ removed :: after
              ∧ (index.tryDetach probe).1.toList = before ++ after)
      ∧ (∀ change error, (index.apply change).2 = .error error
          → (index.apply change).1 = index) := by
  intro index
  have blank : Sturdy ({ order } : Index α) := ⟨trivial, rfl⟩
  have sturdy : index.Sturdy := blank.serve requests
  exact ⟨sturdy.balanced, sturdy.counted, fun _ => tryInsert_ok, fun _ _ => tryDetach_ok,
    fun _ _ => apply_error⟩

end Index

end SpeechRom.Avl
