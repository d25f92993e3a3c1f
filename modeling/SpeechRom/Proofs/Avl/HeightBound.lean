import Mathlib.Analysis.SpecialFunctions.Log.Base
import Mathlib.Data.Nat.Fib.Basic
import SpeechRom.Proofs.Avl.Runs

/-! Balanced trees are low. The fewest records that a height can have grow like the Fibonacci
numbers, so the height stays logarithmic in the number of records, whatever an index is asked to do.
-/

namespace SpeechRom.Avl

variable {α : Type}

namespace Tree

/-- A balanced tree has as many records as its height calls for. Witness: one subtree is one level
lower than the node and the other at most two, which is the step of the Fibonacci numbers.
-/
theorem Balanced.fib_le_size {tree : Tree α} (balanced : tree.Balanced)
    : Nat.fib (tree.height + 2) ≤ tree.size + 1 := by
  induction tree with
  | leaf => exact Nat.le_refl 1
  | node balance left record right ihLeft ihRight =>
      obtain ⟨leftBalanced, rightBalanced, -, leftNear, rightNear⟩ := balanced
      have leftFib := ihLeft leftBalanced
      have rightFib := ihRight rightBalanced
      have step : Nat.fib ((node balance left record right).height + 2)
          = Nat.fib (max left.height right.height + 1)
            + Nat.fib (max left.height right.height + 2) := by
        rw [height_node, Nat.add_comm 1, Nat.fib_add_two]
      rw [step, size]
      rcases Nat.le_total left.height right.height with lower | lower
      · rw [Nat.max_eq_right lower]
        have other : Nat.fib (right.height + 1) ≤ Nat.fib (left.height + 2) :=
          Nat.fib_mono (by omega)
        omega
      · rw [Nat.max_eq_left lower]
        have other : Nat.fib (left.height + 1) ≤ Nat.fib (right.height + 2) :=
          Nat.fib_mono (by omega)
        omega

end Tree

/-- Fibonacci numbers grow by 809 / 500 at each step, a little less than the golden ratio. -/
theorem pow_le_fib (count : Nat) : 809 ^ count ≤ 500 ^ count * Nat.fib (count + 2) := by
  induction count using Nat.twoStepInduction with
  | zero => decide
  | one => decide
  | more count first second =>
      rw [Nat.fib_add_two (n := count + 2)]
      calc 809 ^ (count + 2) = 809 ^ 2 * 809 ^ count := by ring
        _ ≤ 500 ^ 2 * 809 ^ count + 500 * 809 ^ (count + 1) := by rw [pow_succ]; omega
        _ ≤ 500 ^ 2 * (500 ^ count * Nat.fib (count + 2))
            + 500 * (500 ^ (count + 1) * Nat.fib (count + 1 + 2)) := by gcongr
        _ = 500 ^ (count + 2) * (Nat.fib (count + 2) + Nat.fib (count + 2 + 1)) := by ring

/-- A number that is as great as a Fibonacci number bounds its place, with 49 / 34 for the logarithm
of two to the golden ratio. Witness: 49 steps of 809 / 500 are more than 34 doublings.
-/
theorem two_pow_le_of_fib_le {count bound : Nat} (above : Nat.fib (count + 2) ≤ bound)
    : 2 ^ (34 * count) ≤ bound ^ 49 := by
  have doublings : 2 ^ 34 * 500 ^ 49 ≤ 809 ^ 49 := by norm_num
  have steps : 809 ^ count ≤ 500 ^ count * bound :=
    (pow_le_fib count).trans (Nat.mul_le_mul_left _ above)
  refine Nat.le_of_mul_le_mul_right ?_ (show 0 < (500 ^ 49) ^ count by positivity)
  calc 2 ^ (34 * count) * (500 ^ 49) ^ count = (2 ^ 34 * 500 ^ 49) ^ count := by
        rw [pow_mul, mul_pow]
    _ ≤ (809 ^ 49) ^ count := Nat.pow_le_pow_left doublings count
    _ = (809 ^ count) ^ 49 := pow_right_comm ..
    _ ≤ (500 ^ count * bound) ^ 49 := Nat.pow_le_pow_left steps 49
    _ = bound ^ 49 * (500 ^ 49) ^ count := by
        rw [mul_pow, pow_right_comm, Nat.mul_comm]

namespace Index

/-- Whatever the comparisons say and whenever they are replaced, the height of an index that has
been served any requests is bounded by the Fibonacci numbers, and so by the logarithm of the number
of records.
-/
theorem serve_height_bound (order : Option (Comparison α)) (requests : List (Request α))
    : let index := Index.serve { order } requests
      Nat.fib (index.height + 2) ≤ index.size + 1
      ∧ (index.height : ℝ) ≤ 1.4412 * Real.logb 2 (index.size + 2) := by
  intro index
  have blank : Sturdy ({ order } : Index α) := ⟨trivial, rfl⟩
  have sturdy : index.Sturdy := blank.serve requests
  have fewest : Nat.fib (index.height + 2) ≤ index.size + 1 := by
    rw [sturdy.counted]
    exact sturdy.balanced.fib_le_size
  refine ⟨fewest, ?_⟩
  have power : (2 : ℝ) ^ (34 * index.height) ≤ ((index.size : ℝ) + 2) ^ 49 := by
    exact_mod_cast two_pow_le_of_fib_le (fewest.trans (Nat.le_succ _))
  have logarithm := Real.logb_le_logb_of_le one_lt_two (by positivity) power
  rw [Real.logb_pow, Real.logb_pow, Real.logb_self_eq_one one_lt_two] at logarithm
  push_cast at logarithm
  have positive : 0 ≤ Real.logb 2 (index.size + 2) :=
    Real.logb_nonneg one_lt_two (by exact_mod_cast Nat.le_add_left 1 (index.size + 1))
  linarith

end Index

end SpeechRom.Avl
