import Mathlib.Data.List.Count

/-!
# Joining with a separator that is not escaped

Parts joined by a separator that may itself occur in them. The joined sequence
does not determine its parts, but it does once it is known how often the separator
occurs in each part but the last (`append_cons_inj_of_count`, `intercalate_inj_of_count`).
A sequence is cut at its first separator or at its last one (`partition`, `rpartition`).
-/

set_option autoImplicit false

namespace Separated

variable {α : Type*} [DecidableEq α]

/-- Two ways of cutting one sequence at a separator agree when the first parts
hold the separator equally often. -/
theorem append_cons_inj_of_count {sep : α} {first other rest tail : List α}
    (same : first ++ sep :: rest = other ++ sep :: tail)
    (count : first.count sep = other.count sep) : first = other ∧ rest = tail := by
  induction first generalizing other with
  | nil =>
      cases other with
      | nil => exact ⟨rfl, (List.cons.inj same).2⟩
      | cons head other =>
          obtain rfl : sep = head := (List.cons.inj same).1
          simp at count
  | cons head first ih =>
      cases other with
      | nil =>
          obtain rfl : head = sep := (List.cons.inj same).1
          simp at count
      | cons head' other =>
          have pair := List.cons.inj same
          obtain rfl : head = head' := pair.1
          rw [List.count_cons, List.count_cons] at count
          obtain ⟨rfl, rfl⟩ := ih pair.2 (Nat.add_right_cancel count)
          exact ⟨rfl, rfl⟩

/-- Lists of parts that join to one sequence are equal when corresponding parts
before the last hold the separator equally often. -/
theorem intercalate_inj_of_count {sep : α} {parts others : List (List α)}
    (same : [sep].intercalate parts = [sep].intercalate others)
    (length : parts.length = others.length)
    (count : parts.dropLast.map (List.count sep) = others.dropLast.map (List.count sep)) :
    parts = others := by
  induction parts generalizing others with
  | nil => exact (List.length_eq_zero_iff.mp length.symm).symm
  | cons part parts ih =>
      cases others with
      | nil => cases length
      | cons other others =>
          have lengths : parts.length = others.length := Nat.succ.inj length
          cases parts with
          | nil =>
              obtain rfl := List.length_eq_zero_iff.mp lengths.symm
              simpa using same
          | cons next parts =>
              cases others with
              | nil => cases lengths
              | cons next' others =>
                  have cut : part ++ sep :: [sep].intercalate (next :: parts) =
                      other ++ sep :: [sep].intercalate (next' :: others) := by
                    simpa [List.intercalate] using same
                  have counts := List.cons.inj count
                  obtain ⟨rfl, rest⟩ := append_cons_inj_of_count cut counts.1
                  rw [ih rest lengths counts.2]

/-! ## Cutting once -/

/-- What stands before the first separator, and what stands after it. -/
def partition (sep : α) (content : List α) : List α × List α :=
  (content.takeWhile (· ≠ sep), (content.dropWhile (· ≠ sep)).drop 1)

/-- What stands before the last separator, and what stands after it. -/
def rpartition (sep : α) (content : List α) : List α × List α :=
  ((partition sep content.reverse).2.reverse, (partition sep content.reverse).1.reverse)

theorem partition_append_cons {sep : α} {front : List α} (absent : sep ∉ front) (rest : List α) :
    partition sep (front ++ sep :: rest) = (front, rest) := by
  have each : ∀ a ∈ front, decide (a ≠ sep) = true := by
    intro a member
    refine decide_eq_true fun same => ?_
    rw [same] at member
    exact absent member
  rw [partition, List.takeWhile_append_of_pos each, List.dropWhile_append_of_pos each]
  simp

theorem rpartition_append_cons {sep : α} {rest : List α} (absent : sep ∉ rest) (front : List α) :
    rpartition sep (front ++ sep :: rest) = (front, rest) := by
  have backwards : (front ++ sep :: rest).reverse = rest.reverse ++ sep :: front.reverse := by simp
  have outside : sep ∉ rest.reverse := fun member => absent (List.mem_reverse.mp member)
  rw [rpartition, backwards, partition_append_cons outside, List.reverse_reverse,
    List.reverse_reverse]

end Separated
