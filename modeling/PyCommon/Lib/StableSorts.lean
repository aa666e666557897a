import Mathlib.Data.List.Basic
import Mathlib.Order.Lattice

/-!
# Stable sorts by several keys

A comparison is a total preorder that can be decided. A list is sorted stably by a comparison if
the result is a rearrangement in order, in which the items that tie with any one of them stand as
they stood before (`Sorts`).

A merge sort is stable (`sorts_mergeSort`), and so is one of the reversed list, reversed again, by
the reversed comparison (`Sorts.reverse`). A stable sort by one comparison of what has been sorted
stably by another is a stable sort by the two of them, the first before the second
(`Sorts.thenBy`): so the passes of a sort by several keys begin with the least significant.
-/

set_option autoImplicit false

namespace StableSorts

variable {α κ : Type*}

/-! ## Comparisons -/

/-- A total preorder that can be decided. -/
structure Comparison (α : Type*) where
  le : α → α → Bool
  trans : ∀ a b c, le a b → le b c → le a c
  total : ∀ a b, (le a b || le b a) = true

namespace Comparison

/-- Neither of two items comes before the other. -/
def tied (order : Comparison α) (a b : α) : Bool := order.le a b && order.le b a

/-- All items tie. -/
def trivial : Comparison α where
  le _ _ := true
  trans _ _ _ _ _ := rfl
  total _ _ := rfl

/-- By a key. -/
def onKey [LinearOrder κ] (key : α → κ) : Comparison α where
  le a b := decide (key a ≤ key b)
  trans a b c first second :=
    decide_eq_true (le_trans (of_decide_eq_true first) (of_decide_eq_true second))
  total a b := by
    rw [Bool.or_eq_true, decide_eq_true_iff, decide_eq_true_iff]
    exact le_total (key a) (key b)

def reversed (order : Comparison α) : Comparison α where
  le a b := order.le b a
  trans a b c first second := order.trans c b a second first
  total a b := order.total b a

/-- By the first comparison, and by the second one where that ties. -/
def thenBy (major minor : Comparison α) : Comparison α where
  le a b := major.le a b && (!major.le b a || minor.le a b)
  trans a b c first second := by
    simp only [Bool.and_eq_true, Bool.or_eq_true, Bool.not_eq_true'] at first second ⊢
    refine ⟨major.trans a b c first.1 second.1, ?_⟩
    rcases first.2 with before | tie
    · refine .inl (Bool.eq_false_iff.mpr fun back => ?_)
      rw [major.trans b c a second.1 back] at before
      cases before
    · rcases second.2 with before | later
      · refine .inl (Bool.eq_false_iff.mpr fun back => ?_)
        rw [major.trans c a b back first.1] at before
        cases before
      · exact .inr (minor.trans a b c tie later)
  total a b := by
    have majors := major.total a b
    have minors := minor.total a b
    revert majors minors
    cases major.le a b <;> cases major.le b a <;> simp

theorem tied_onKey [LinearOrder κ] {key : α → κ} {a b : α} :
    (onKey key).tied a b = true ↔ key a = key b := by
  rw [tied, Bool.and_eq_true]
  exact (and_congr decide_eq_true_iff decide_eq_true_iff).trans le_antisymm_iff.symm

theorem tied_reversed (order : Comparison α) (a b : α) :
    order.reversed.tied a b = order.tied a b := Bool.and_comm _ _

theorem le_thenBy {major minor : Comparison α} {a b : α} :
    (major.thenBy minor).le a b = true ↔
      major.le a b = true ∧ (¬ major.le b a = true ∨ minor.le a b = true) := by
  rw [thenBy, Bool.and_eq_true, Bool.or_eq_true, Bool.not_eq_true', Bool.not_eq_true]

theorem tied_thenBy (major minor : Comparison α) (a b : α) :
    (major.thenBy minor).tied a b = (major.tied a b && minor.tied a b) := by
  simp only [tied, thenBy]
  cases major.le a b <;> cases major.le b a <;> simp

/-- Two items that tie with a third tie. -/
theorem le_of_tied (order : Comparison α) {a b c : α} (first : order.tied a b = true)
    (second : order.tied a c = true) : order.le b c = true := by
  rw [tied, Bool.and_eq_true] at first second
  exact order.trans b a c first.2 second.1

end Comparison

/-! ## Stable sorts -/

/-- The result of a stable sort of a list. -/
structure Sorts (order : Comparison α) (items result : List α) : Prop where
  perm : result.Perm items
  ordered : result.Pairwise fun a b => order.le a b = true
  stable : ∀ a, result.filter (order.tied a) = items.filter (order.tied a)

theorem sorts_trivial (items : List α) : Sorts Comparison.trivial items items where
  perm := List.Perm.refl items
  ordered := List.pairwise_of_forall_mem_list fun _ _ _ _ => rfl
  stable _ := rfl

/-- **A merge sort is stable.** -/
theorem sorts_mergeSort (order : Comparison α) (items : List α) :
    Sorts order items (items.mergeSort order.le) := by
  have perm := List.mergeSort_perm items order.le
  refine ⟨perm, List.pairwise_mergeSort order.trans order.total items, ?_⟩
  intro a
  -- the items that tie with this one are in order already, and so they stay as they are
  have tied : (items.filter (order.tied a)).Pairwise fun b c => order.le b c = true := by
    refine List.pairwise_of_forall_mem_list fun b first c second => ?_
    exact order.le_of_tied (List.mem_filter.mp first).2 (List.mem_filter.mp second).2
  have kept := (List.sublist_mergeSort order.trans order.total tied List.filter_sublist).filter
    (order.tied a)
  simp only [List.filter_filter, Bool.and_self] at kept
  exact (kept.eq_of_length (perm.filter (order.tied a)).length_eq.symm).symm

section Rules

variable {order major minor : Comparison α} {items middle result : List α}

/-- **Backwards**, a stable sort is one by the reversed comparison. -/
theorem Sorts.reverse (sorts : Sorts order items result) :
    Sorts order.reversed items.reverse result.reverse := by
  refine ⟨?_, List.pairwise_reverse.mpr sorts.ordered, ?_⟩
  · exact (List.reverse_perm result).trans (sorts.perm.trans (List.reverse_perm items).symm)
  · intro a
    have same : order.reversed.tied a = order.tied a := funext (order.tied_reversed a)
    rw [same, List.filter_reverse, List.filter_reverse, sorts.stable]

/-- Where the first comparison ties, what the second has put in order is still in order. -/
theorem le_of_pair (first : Sorts minor items middle) (second : Sorts major middle result)
    {a b : α} (pair : [a, b].Sublist result) (tie : major.tied a b = true) :
    minor.le a b = true := by
  have self : major.tied a a = true := by
    have total := major.total a a
    rw [Bool.or_self] at total
    rw [Comparison.tied, total, Bool.and_self]
  have among : [a, b].Sublist (middle.filter (major.tied a)) := by
    have kept := pair.filter (major.tied a)
    rwa [List.filter_cons_of_pos self, List.filter_cons_of_pos tie, List.filter_nil,
      second.stable] at kept
  exact List.pairwise_iff_forall_sublist.mp first.ordered (among.trans List.filter_sublist)

/-- **Two passes.** A stable sort by the minor comparison and then one by the major are a stable
sort by the two, the major before the minor. -/
theorem Sorts.thenBy (first : Sorts minor items middle) (second : Sorts major middle result) :
    Sorts (major.thenBy minor) items result := by
  refine ⟨second.perm.trans first.perm, ?_, ?_⟩
  · rw [List.pairwise_iff_forall_sublist]
    intro a b pair
    have forward : major.le a b = true :=
      List.pairwise_iff_forall_sublist.mp second.ordered pair
    refine Comparison.le_thenBy.mpr ⟨forward, or_iff_not_imp_left.mpr fun back => ?_⟩
    have tie : major.tied a b = true := by
      rw [Comparison.tied, forward, not_not.mp back, Bool.and_self]
    exact le_of_pair first second pair tie
  · intro a
    have both : ∀ l : List α, l.filter ((major.thenBy minor).tied a)
        = (l.filter (minor.tied a)).filter (major.tied a) := by
      intro l
      rw [List.filter_filter]
      exact congrArg (l.filter ·) (funext (major.tied_thenBy minor a))
    have swapped : ∀ l : List α, (l.filter (minor.tied a)).filter (major.tied a)
        = (l.filter (major.tied a)).filter (minor.tied a) := by
      intro l
      rw [List.filter_filter, List.filter_filter]
      exact congrArg (l.filter ·) (funext fun b => Bool.and_comm _ _)
    rw [both, both, swapped, second.stable, ← swapped, first.stable]

end Rules

end StableSorts
