import SpeechRom.Proofs.Avl.Records

/-! Three ways through a tree give the same records in the same order, whatever its shape. A cursor
and a tree that is taken apart hold on a stack what is still to come; a walk goes down both subtrees
and stops as soon as its visitor does.
-/

namespace SpeechRom.Avl

variable {α : Type}

-----------------------------------------------------------------------------------------
-- Stacks
-----------------------------------------------------------------------------------------

namespace Cursor

/-- What a stack holds, in order: each record comes before the subtree that follows it. -/
def ahead (cursor : Cursor α) : List α :=
  cursor.flatMap fun entry => entry.1 :: entry.2.toList

@[simp] theorem ahead_nil : ahead ([] : Cursor α) = [] := rfl

@[simp] theorem ahead_cons (record : α) (right : Tree α) (pending : Cursor α)
    : ahead ((record, right) :: pending) = record :: (right.toList ++ ahead pending) := rfl

/-- A left spine on top of a stack puts the whole tree before what was there. -/
@[simp] theorem ahead_descend (tree : Tree α) (pending : Cursor α)
    : ahead (descend tree pending) = tree.toList ++ ahead pending := by
  induction tree generalizing pending with
  | leaf => rfl
  | node balance left record right ihLeft =>
      rw [descend, ihLeft, ahead_cons, Tree.toList_node, List.append_assoc, List.cons_append]

/-- Asked for the next record again and again, a cursor gives these records and then no more. -/
inductive Gives : Cursor α → List α → Prop
  | nothing {cursor : Cursor α} (ended : cursor.next? = none) : Gives cursor []
  | record {cursor later : Cursor α} {record : α} {rest : List α}
    (next : cursor.next? = some (record, later)) (gives : Gives later rest)
    : Gives cursor (record :: rest)

/-- A cursor gives what its stack holds, by induction on the number of records to come. -/
theorem gives_ahead (cursor : Cursor α) : Gives cursor (ahead cursor) := by
  induction cursor using toList.induct with
  | case1 => exact .nothing rfl
  | case2 record right pending ih =>
      rw [ahead_descend] at ih
      exact .record rfl ih

/-- All records of a cursor are those that it gives one by one. -/
theorem Gives.toList_eq {cursor : Cursor α} {records : List α} (gives : cursor.Gives records)
    : cursor.toList = records := by
  induction gives with
  | @nothing cursor ended =>
      cases cursor with
      | nil => rw [toList]
      | cons entry pending => cases ended
  | @record cursor later record rest next _ ih =>
      cases cursor with
      | nil => cases next
      | cons entry pending =>
          obtain ⟨rfl, rfl⟩ := Prod.mk.inj (Option.some.inj next)
          rw [toList, ih]

theorem start_gives (tree : Tree α) : (start tree).Gives tree.toList := by
  have gives := gives_ahead (start tree)
  rwa [start, ahead_descend, ahead_nil, List.append_nil] at gives

end Cursor

namespace Tree

/-- Taking apart gives what has been collected, then the tree at hand, then what waits. -/
theorem dismantle_eq (current : Tree α) (waiting : Cursor α) (records : List α)
    : dismantle current waiting records
      = records.reverse ++ (current.toList ++ Cursor.ahead waiting) := by
  induction current, waiting, records using dismantle.induct with
  | case1 waiting records balance left record right ih =>
      rw [dismantle, ih, Cursor.ahead_cons, toList_node, List.append_assoc, List.cons_append]
  | case2 records =>
      rw [dismantle, toList_leaf, Cursor.ahead_nil, List.append_nil, List.append_nil]
  | case3 records record right waiting ih =>
      rw [dismantle, ih, List.reverse_cons, List.append_assoc, List.singleton_append, toList_leaf,
        Cursor.ahead_cons, List.nil_append]

theorem drain_eq_toList (tree : Tree α) : tree.drain = tree.toList := by
  rw [drain, dismantle_eq, List.reverse_nil, List.nil_append, Cursor.ahead_nil, List.append_nil]

theorem inWalkOrder_inOrder (tree : Tree α) : tree.inWalkOrder .inOrder = tree.toList := by
  induction tree with
  | leaf => rfl
  | node balance left record right ihLeft ihRight =>
      simp only [inWalkOrder, ihLeft, ihRight, toList_node]

-----------------------------------------------------------------------------------------
-- Visitors
-----------------------------------------------------------------------------------------

variable {σ β : Type}

/-- Calls a visitor on the records of a list until it stops. -/
def visitAll (visit : σ → α → σ × Option β) (state : σ) : List α → σ × Option β
  | [] => (state, none)
  | record :: rest => thenWalk (visit state record) fun state => visitAll visit state rest

@[simp] theorem thenWalk_none (state : σ) (next : σ → σ × Option β)
    : thenWalk (state, none) next = next state := rfl

@[simp] theorem thenWalk_some (state : σ) (value : β) (next : σ → σ × Option β)
    : thenWalk (state, some value) next = (state, some value) := rfl

theorem thenWalk_assoc (step : σ × Option β) (next last : σ → σ × Option β)
    : thenWalk (thenWalk step next) last
      = thenWalk step fun state => thenWalk (next state) last := by
  obtain ⟨state, answer⟩ := step
  cases answer <;> rfl

theorem thenWalk_pure (step : σ × Option β)
    : thenWalk step (fun state => (state, none)) = step := by
  obtain ⟨state, answer⟩ := step
  cases answer <;> rfl

theorem visitAll_append (visit : σ → α → σ × Option β) (state : σ) (front rest : List α)
    : visitAll visit state (front ++ rest)
      = thenWalk (visitAll visit state front) fun state => visitAll visit state rest := by
  induction front generalizing state with
  | nil => rfl
  | cons record front ih => simp only [List.cons_append, visitAll, ih, thenWalk_assoc]

/-- A walk calls its visitor as if on the list of all records in its order. Witness: a stop in one
part of a node keeps the later parts from being visited, as it does in a list.
-/
theorem walk_eq_visitAll (order : WalkOrder) (visit : σ → α → σ × Option β) (state : σ)
    (tree : Tree α)
    : tree.walk order visit state = visitAll visit state (tree.inWalkOrder order) := by
  induction tree generalizing state with
  | leaf => rfl
  | node balance left record right ihLeft ihRight =>
      cases order with
      | nodeFirst =>
          simp only [walk, inWalkOrder, List.cons_append, visitAll, visitAll_append, ihLeft,
            ihRight]
      | inOrder => simp only [walk, inWalkOrder, visitAll, visitAll_append, ihLeft, ihRight]
      | nodeLast =>
          simp only [walk, inWalkOrder, visitAll, visitAll_append, ihLeft, ihRight,
            thenWalk_assoc, thenWalk_pure]

/-- Called on the records in turn, a visitor goes on after each of them. -/
inductive GoesOn (visit : σ → α → σ × Option β) : σ → List α → σ → Prop
  | start (state : σ) : GoesOn visit state [] state
  | visited {state next final : σ} {record : α} {rest : List α}
    (answer : visit state record = (next, none)) (later : GoesOn visit next rest final)
    : GoesOn visit state (record :: rest) final

/-- A visitor that also notes the records on which it is called. -/
def noting (visit : σ → α → σ × Option β) (state : σ × List α) (record : α)
    : (σ × List α) × Option β :=
  (((visit state.1 record).1, state.2 ++ [record]), (visit state.1 record).2)

/-- Noting does not change whether a visitor goes on. -/
theorem GoesOn.noting {visit : σ → α → σ × Option β} {state final : σ} {records : List α}
    (goesOn : GoesOn visit state records final) (noted : List α)
    : GoesOn (noting visit) (state, noted) records (final, noted ++ records) := by
  induction goesOn generalizing noted with
  | start state =>
      rw [List.append_nil]
      exact .start (state, noted)
  | @visited state next final record rest answer _ ih =>
      have later := ih (noted ++ [record])
      rw [List.append_assoc, List.singleton_append] at later
      exact .visited (by simp only [Tree.noting, answer]) later

/-- A visitor that only collects records goes on after each of them. -/
theorem goesOn_collecting (records seen : List α)
    : GoesOn (fun seen record => (seen ++ [record], (none : Option β))) seen records
        (seen ++ records) := by
  induction records generalizing seen with
  | nil =>
      rw [List.append_nil]
      exact .start seen
  | cons record rest ih =>
      have later := ih (seen ++ [record])
      rw [List.append_assoc, List.singleton_append] at later
      exact .visited rfl later

/-- Records on which a visitor goes on are passed over. -/
theorem GoesOn.visitAll_append {visit : σ → α → σ × Option β} {state middle : σ} {before : List α}
    (goesOn : GoesOn visit state before middle) (after : List α)
    : visitAll visit state (before ++ after) = visitAll visit middle after := by
  induction goesOn with
  | start => rfl
  | visited answer _ ih => rw [List.cons_append, visitAll, answer, thenWalk_none, ih]

theorem GoesOn.visitAll_eq {visit : σ → α → σ × Option β} {state final : σ} {records : List α}
    (goesOn : GoesOn visit state records final)
    : visitAll visit state records = (final, none) := by
  have passed := goesOn.visitAll_append []
  rwa [List.append_nil] at passed

theorem GoesOn.visitAll_stop {visit : σ → α → σ × Option β} {state middle final : σ}
    {before : List α} {record : α} {value : β} (goesOn : GoesOn visit state before middle)
    (stopped : visit middle record = (final, some value)) (after : List α)
    : visitAll visit state (before ++ record :: after) = (final, some value) := by
  rw [goesOn.visitAll_append, visitAll, stopped, thenWalk_some]

/-- A visitor goes on to the end of a list, or there is a first record on which it stops. -/
theorem goesOn_or_stops (visit : σ → α → σ × Option β) (state : σ) (records : List α)
    : (∃ final, GoesOn visit state records final)
      ∨ ∃ before record after middle final value,
          records = before ++ record :: after
          ∧ GoesOn visit state before middle
          ∧ visit middle record = (final, some value) := by
  induction records generalizing state with
  | nil => exact .inl ⟨state, .start state⟩
  | cons record rest ih =>
      rcases visited : visit state record with ⟨next, _ | value⟩
      · rcases ih next with
          ⟨final, goesOn⟩ | ⟨before, last, after, middle, final, value, split, goesOn, stopped⟩
        · exact .inl ⟨final, .visited visited goesOn⟩
        · exact .inr ⟨record :: before, last, after, middle, final, value,
            by rw [split, List.cons_append], .visited visited goesOn, stopped⟩
      · exact .inr ⟨[], record, rest, state, next, value, rfl, .start state, visited⟩

end Tree

namespace Index

theorem records_eq_toList (index : Index α) : index.records = index.toList :=
  (Cursor.start_gives index.root).toList_eq

/-- The cursor, the taking apart and the walk in order all give the records in order. A walk in any
order calls its visitor on the records of that order up to the first on which it stops, and gives
what the visitor gave there; if the visitor never stops, all records are visited.
-/
theorem walks_agree (index : Index α)
    : (Cursor.start index.root).Gives index.toList
      ∧ index.records = index.toList
      ∧ index.takeRecords.1 = index.toList
      ∧ (∀ β : Type,
          index.walk .inOrder (fun seen record => (seen ++ [record], (none : Option β))) []
            = (index.toList, none))
      ∧ ∀ (σ β : Type) (order : WalkOrder) (visit : σ → α → σ × Option β) (state : σ),
          let all := index.root.inWalkOrder order
          (∃ final,
            Tree.GoesOn visit state all final
            ∧ index.walk order visit state = (final, none)
            ∧ index.walk order (Tree.noting visit) (state, []) = ((final, all), none))
          ∨ ∃ before record after middle final value,
              all = before ++ record :: after
              ∧ Tree.GoesOn visit state before middle
              ∧ visit middle record = (final, some value)
              ∧ index.walk order visit state = (final, some value)
              ∧ index.walk order (Tree.noting visit) (state, [])
                = ((final, before ++ [record]), some value) := by
  refine ⟨Cursor.start_gives index.root, index.records_eq_toList, index.root.drain_eq_toList,
    fun β => ?_, fun σ β order visit state => ?_⟩
  · rw [walk, Tree.walk_eq_visitAll, Tree.inWalkOrder_inOrder]
    exact (Tree.goesOn_collecting index.toList []).visitAll_eq
  intro all
  simp only [walk, Tree.walk_eq_visitAll]
  rcases Tree.goesOn_or_stops visit state all with
    ⟨final, goesOn⟩ | ⟨before, record, after, middle, final, value, split, goesOn, stopped⟩
  · exact .inl ⟨final, goesOn, goesOn.visitAll_eq, (goesOn.noting []).visitAll_eq⟩
  · refine .inr ⟨before, record, after, middle, final, value, split, goesOn, stopped, ?_, ?_⟩
    · have ended := goesOn.visitAll_stop stopped after
      rwa [← split] at ended
    · have noted : Tree.noting visit (middle, before) record
          = ((final, before ++ [record]), some value) := by simp only [Tree.noting, stopped]
      have ended := (goesOn.noting []).visitAll_stop noted after
      rwa [← split] at ended

end Index

end SpeechRom.Avl
