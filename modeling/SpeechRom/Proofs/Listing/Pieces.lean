import Mathlib.Data.List.Basic
import Mathlib.Tactic.IntervalCases
import SpeechRom.Symbol.Dump

/-! Lists laid out for printing. Cut into pieces or set in columns, a list is whole: the pieces one
after another, and the columns from left to right, give it back in its order.
-/

namespace SpeechRom

-----------------------------------------------------------------------------------------
-- Pieces
-----------------------------------------------------------------------------------------

/-- Pieces of one width, of which the last may be short or empty, make up a range. Witness:
induction on the number of pieces, where a piece after the end adds nothing.
-/
theorem range_pieces (width count pieces : Nat)
    : (List.range pieces).flatMap (fun piece =>
        (List.range (min width (count - width * piece))).map (width * piece + ·))
      = List.range (min count (width * pieces)) := by
  induction pieces with
  | zero => rw [Nat.mul_zero, Nat.min_zero, List.range_zero, List.flatMap_nil]
  | succ pieces ih =>
      rw [List.range_succ, List.flatMap_append, ih, List.flatMap_singleton, Nat.mul_succ]
      by_cases within : width * pieces ≤ count
      · have total : min count (width * pieces + width)
            = width * pieces + min width (count - width * pieces) := by omega
        rw [total, List.range_add, Nat.min_eq_right within]
      · have ended : min width (count - width * pieces) = 0 := by omega
        have total : min count (width * pieces + width) = min count (width * pieces) := by omega
        rw [ended, total, List.range_zero, List.map_nil, List.append_nil]

/-- A stretch of what a range is mapped to is what its places are mapped to. -/
theorem take_drop_map_range {α : Type} (f : Nat → α) (count start width : Nat)
    : (((List.range count).map f).drop start).take width
      = (List.range (min width (count - start))).map fun place => f (start + place) := by
  refine List.ext_getElem (by simp) fun place _ _ => ?_
  simp only [List.getElem_take, List.getElem_drop, List.getElem_map, List.getElem_range]

section Chunks

variable {α : Type} {size : Nat}

/-- A piece starts at each multiple of the size before the end. Witness: recursion of the cutting,
where each piece takes one multiple off.
-/
theorem chunks_eq (positive : 0 < size) (items : List α)
    : chunks size items
      = (List.range ((items.length + size - 1) / size)).map fun piece =>
          (items.drop (size * piece)).take size := by
  fun_induction chunks size items with
  | case1 items ended =>
      have empty : items.length = 0 := by
        rcases ended with rfl | zero
        · rfl
        · omega
      have zero : (items.length + size - 1) / size = 0 := Nat.div_eq_of_lt (by omega)
      rw [zero]
      rfl
  | case2 items going ih =>
      have nonempty : 0 < items.length := List.length_pos_iff.mpr fun nil => going (.inl nil)
      have pieces : (items.length + size - 1) / size
          = ((items.drop size).length + size - 1) / size + 1 := by
        rw [List.length_drop]
        by_cases longer : size ≤ items.length
        · have total : items.length + size - 1 = items.length - size + size - 1 + size := by omega
          rw [total, Nat.add_div_right _ positive]
        · have rest : (items.length - size + size - 1) / size = 0 := Nat.div_eq_of_lt (by omega)
          have total : items.length + size - 1 = items.length - 1 + size := by omega
          rw [rest, total, Nat.add_div_right _ positive, Nat.div_eq_of_lt (by omega)]
      rw [pieces, List.range_succ_eq_map, List.map_cons, List.map_map, ih]
      refine congrArg (_ :: ·) (List.map_congr_left fun piece _ => ?_)
      rw [Function.comp, List.drop_drop, Nat.succ_eq_add_one, Nat.mul_succ, Nat.add_comm]

theorem length_chunks (positive : 0 < size) (items : List α)
    : (chunks size items).length = (items.length + size - 1) / size := by
  rw [chunks_eq positive, List.length_map, List.length_range]

theorem flatten_chunks (positive : 0 < size) (items : List α)
    : (chunks size items).flatten = items := by
  fun_induction chunks size items with
  | case1 items ended =>
      rcases ended with rfl | zero
      · rfl
      · omega
  | case2 items _ ih => rw [List.flatten_cons, ih, List.take_append_drop]

theorem chunks_eq_nil_iff (positive : 0 < size) (items : List α)
    : chunks size items = [] ↔ items = [] := by
  have whole := flatten_chunks positive items
  constructor
  · intro uncut
    rw [← whole, uncut, List.flatten_nil]
  · rintro rfl
    rw [chunks, if_pos (.inl rfl)]

/-- No piece is empty or too long. -/
theorem length_mem_chunks {items piece : List α} (member : piece ∈ chunks size items)
    : 1 ≤ piece.length ∧ piece.length ≤ size := by
  fun_induction chunks size items with
  | case1 items ended => cases member
  | case2 items going ih =>
      rcases List.mem_cons.mp member with rfl | later
      · have nonempty : 0 < items.length := List.length_pos_iff.mpr fun nil => going (.inl nil)
        have positive : size ≠ 0 := fun zero => going (.inr zero)
        rw [List.length_take]
        omega
      · exact ih later

/-- A fixed number of pieces that hold a list are those it is cut into and empty ones after them. -/
theorem map_pieces_eq_chunks (positive : 0 < size) {items : List α} {pieces : Nat}
    (enough : items.length ≤ size * pieces)
    : (List.range pieces).map (fun piece => (items.drop (size * piece)).take size)
      = chunks size items
        ++ List.replicate (pieces - (items.length + size - 1) / size) [] := by
  obtain ⟨full, quotient⟩ : ∃ full, (items.length + size - 1) / size = full := ⟨_, rfl⟩
  have upper : full < pieces + 1 := by
    rw [← quotient]
    exact Nat.div_lt_of_lt_mul (by rw [Nat.mul_succ]; omega)
  have lower : items.length ≤ size * full := by
    have ends := Nat.lt_mul_div_succ (items.length + size - 1) positive
    rw [quotient, Nat.mul_succ] at ends
    omega
  have split : pieces = full + (pieces - full) := by omega
  rw [chunks_eq positive, quotient]
  nth_rewrite 1 [split]
  rw [List.range_add, List.map_append]
  refine congrArg (_ ++ ·) (List.eq_replicate_iff.mpr ⟨by simp, fun piece member => ?_⟩)
  obtain ⟨number, listed, rfl⟩ := List.mem_map.mp member
  obtain ⟨place, -, rfl⟩ := List.mem_map.mp listed
  rw [List.drop_of_length_le (by rw [Nat.mul_add]; omega), List.take_nil]

end Chunks

-----------------------------------------------------------------------------------------
-- Columns
-----------------------------------------------------------------------------------------

section Columns

variable {α : Type}

/-- Rows of at most three read column by column, each column from top to bottom. -/
def readColumns (rows : List (List α)) : List α :=
  (List.range 3).flatMap fun column => rows.filterMap (·[column]?)

/-- The row of a number when items are set in so many rows of three columns, column by column. -/
def columnRow (items : List α) (rows row : Nat) : List α :=
  [row, row + rows, row + 2 * rows].filterMap (items[·]?)

/-- Items in as few rows of three columns as can hold them. -/
def columnRows (items : List α) : List (List α) :=
  (List.range ((items.length + 2) / 3)).map (columnRow items ((items.length + 2) / 3))

theorem length_columnRows (items : List α)
    : (columnRows items).length = (items.length + 2) / 3 := by
  rw [columnRows, List.length_map, List.length_range]

/-- A cell is missing only behind the last cell of its row. Witness: the columns of a row are taken
from the list in rising order, so behind a place past its end there are only such places.
-/
theorem getElem?_filterMap_rising (items : List α) {first second third : Nat}
    (inside : first < items.length) (rising : second ≤ third) {column : Nat} (three : column < 3)
    : ([first, second, third].filterMap (items[·]?))[column]?
      = [items[first]?, items[second]?, items[third]?][column]?.join := by
  have here : items[first]? = some items[first] := List.getElem?_eq_getElem inside
  by_cases both : third < items.length
  · have next : items[second]? = some items[second] := List.getElem?_eq_getElem (by omega)
    have last : items[third]? = some items[third] := List.getElem?_eq_getElem both
    interval_cases column <;> simp [here, next, last]
  · have last : items[third]? = none := List.getElem?_eq_none (by omega)
    cases next : items[second]? <;> interval_cases column <;> simp [here, next, last]

/-- Each row has a cell in the first column and none behind the third. -/
theorem length_mem_columnRows {items row : List α} (member : row ∈ columnRows items)
    : 1 ≤ row.length ∧ row.length ≤ 3 := by
  obtain ⟨number, listed, rfl⟩ := List.mem_map.mp member
  have inside : number < items.length := by
    have := List.mem_range.mp listed
    omega
  refine ⟨?_, List.length_filterMap_le ..⟩
  rw [columnRow, List.filterMap_cons_some (List.getElem?_eq_getElem inside)]
  exact Nat.le_add_left ..

theorem mem_of_mem_columnRows {items row : List α} {item : α} (member : row ∈ columnRows items)
    (inside : item ∈ row)
    : item ∈ items := by
  obtain ⟨number, -, rfl⟩ := List.mem_map.mp member
  obtain ⟨place, -, found⟩ := List.mem_filterMap.mp inside
  exact List.mem_of_getElem? found

/-- The places from one on, as far as there are any, hold a stretch of a list. -/
theorem filterMap_range_getElem? (items : List α) (start count : Nat)
    : (List.range count).filterMap (fun place => items[start + place]?)
      = (items.drop start).take count := by
  induction count with
  | zero => rfl
  | succ count ih =>
      rw [List.range_succ, List.filterMap_append, ih, List.take_add_one, List.getElem?_drop]
      cases found : items[start + count]? <;> simp [found]

/-- Items set in rows are read back by columns. Witness: each column is a stretch of the list as
long as there are rows, and three such stretches reach its end.
-/
theorem readColumns_columnRows (items : List α) : readColumns (columnRows items) = items := by
  obtain ⟨rows, height⟩ : ∃ rows, (items.length + 2) / 3 = rows := ⟨_, rfl⟩
  have column (number : Nat) (three : number < 3)
      : (columnRows items).filterMap (·[number]?) = (items.drop (number * rows)).take rows := by
    rw [columnRows, List.filterMap_map, height, ← filterMap_range_getElem?]
    refine List.filterMap_congr fun row listed => ?_
    have inside := List.mem_range.mp listed
    rw [Function.comp, columnRow, getElem?_filterMap_rising items (by omega) (by omega) three]
    interval_cases number <;> simp [Nat.add_comm]
  have stretches : readColumns (columnRows items)
      = items.take rows ++ ((items.drop rows).take rows ++ (items.drop (2 * rows)).take rows) := by
    have columns := List.flatMap_congr fun number (listed : number ∈ List.range 3) =>
      column number (List.mem_range.mp listed)
    rw [readColumns, columns]
    simp [List.range_succ]
  have rest : ((items.drop rows).drop rows).length ≤ rows := by
    rw [List.length_drop, List.length_drop]
    omega
  rw [stretches, Nat.two_mul, ← List.drop_drop, List.take_of_length_le rest,
    List.take_append_drop, List.take_append_drop]

end Columns

end SpeechRom
