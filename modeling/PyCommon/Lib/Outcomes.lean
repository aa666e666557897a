import Mathlib.Logic.Basic

/-!
# Outcomes

A computation that may raise, as an `Except`: what is known when a sequence of two has not
raised, and what a computation for each item of a list gives when none of them raises.
-/

set_option autoImplicit false

namespace Outcome

/-- A sequence succeeds when both its parts do. -/
theorem bind_eq_ok {ε α β : Type} {x : Except ε α} {k : α → Except ε β} {b : β} :
    x >>= k = .ok b ↔ ∃ a, x = .ok a ∧ k a = .ok b := by
  cases x with
  | error e =>
      constructor
      · intro made
        cases made
      · rintro ⟨a, made, -⟩
        cases made
  | ok a =>
      constructor
      · intro made
        exact ⟨a, rfl, made⟩
      · rintro ⟨_, same, made⟩
        obtain rfl := Except.ok.inj same
        exact made

theorem mapM_eq_ok {ε α β : Type} {f : α → Except ε β} {g : α → β} {items : List α}
    (each : ∀ a ∈ items, f a = .ok (g a)) : items.mapM f = .ok (items.map g) := by
  induction items with
  | nil => rfl
  | cons a rest ih =>
      rw [List.forall_mem_cons] at each
      rw [List.mapM_cons, each.1, ih each.2]
      rfl

end Outcome
