import Mathlib.Data.List.Basic

/-!
# Slices of a list

A list in slices of one size, the last of which may be short. Every list has at least one slice,
so that the first of the empty list is the empty one. The slices make up the list
(`flatMap_slice_count`), and after a slice something is left exactly if there is another one
(`lt_count_iff`).
-/

set_option autoImplicit false

namespace Slices

variable {α : Type*} (size : ℕ) (whole : List α)

/-- The slice with this number, from zero on. -/
def slice (n : ℕ) : List α := (whole.drop (n * size)).take size

/-- How many slices there are. -/
def count : ℕ := (whole.length - 1) / size + 1

variable {size whole}

theorem length_slice_le (n : ℕ) : (slice size whole n).length ≤ size := List.length_take_le _ _

/-- The first slices make up a front of the list. -/
theorem flatMap_slice (n : ℕ) :
    (List.range n).flatMap (slice size whole) = whole.take (n * size) := by
  induction n with
  | zero => rw [List.range_zero, List.flatMap_nil, Nat.zero_mul, List.take_zero]
  | succ n ih =>
      rw [List.range_succ, List.flatMap_append, ih, List.flatMap_singleton, slice, Nat.succ_mul,
        List.take_add]

/-- **Something is left after a slice exactly if there is another one.** -/
theorem lt_count_iff (positive : 0 < size) {n : ℕ} :
    n + 1 < count size whole ↔ (n + 1) * size < whole.length := by
  have least : 0 < (n + 1) * size := Nat.mul_pos n.succ_pos positive
  rw [count, Nat.succ_lt_succ_iff, Nat.lt_iff_add_one_le, Nat.le_div_iff_mul_le positive]
  omega

theorem length_le_count_mul (positive : 0 < size) : whole.length ≤ count size whole * size := by
  have last : ¬ (whole.length - 1) / size + 1 < count size whole := Nat.lt_irrefl _
  rw [lt_count_iff positive] at last
  exact Nat.le_of_not_lt last

theorem count_le (whole : List α) : count size whole ≤ whole.length + 1 := by
  have small := Nat.div_le_self (whole.length - 1) size
  unfold count
  omega

/-- **The slices make up the list.** -/
theorem flatMap_slice_count (positive : 0 < size) :
    (List.range (count size whole)).flatMap (slice size whole) = whole := by
  rw [flatMap_slice, List.take_of_length_le (length_le_count_mul positive)]

end Slices
