import Mathlib.Data.Nat.Notation
import Mathlib.Logic.Function.Basic

/-!
# A key space with deadlines

Values held under keys, each with a deadline. A command reads or changes one key;
when the clock has reached a deadline the key is gone.
-/

set_option autoImplicit false

namespace Keyspace

universe u v

structure Slot (ν : Type v) where
  value : ν
  deadline : ℕ
  deriving DecidableEq

/-- What every key holds. -/
abbrev Store (κ : Type u) (ν : Type v) := κ → Option (Slot ν)

variable {κ : Type u} {ν : Type v}

/-- The store with nothing in it. -/
def empty : Store κ ν := fun _ => none

/-- The keys whose deadline is still to come. -/
def evict (now : ℕ) (store : Store κ ν) : Store κ ν := fun key =>
  (store key).filter fun slot => now < slot.deadline

theorem evict_eq_some {now : ℕ} {store : Store κ ν} {key : κ} {slot : Slot ν} :
    evict now store key = some slot ↔ store key = some slot ∧ now < slot.deadline := by
  simp [evict, Option.filter_eq_some_iff]

variable [DecidableEq κ]

def write (store : Store κ ν) (key : κ) (value : ν) (deadline : ℕ) : Store κ ν :=
  Function.update store key (some ⟨value, deadline⟩)

def delete (store : Store κ ν) (key : κ) : Store κ ν := Function.update store key none

@[simp] theorem write_self (store : Store κ ν) (key : κ) (value : ν) (deadline : ℕ) :
    write store key value deadline key = some ⟨value, deadline⟩ :=
  Function.update_self ..

theorem write_of_ne {store : Store κ ν} {key other : κ} {value : ν} {deadline : ℕ}
    (different : other ≠ key) : write store key value deadline other = store other :=
  Function.update_of_ne different ..

@[simp] theorem delete_self (store : Store κ ν) (key : κ) : delete store key key = none :=
  Function.update_self ..

theorem delete_of_ne {store : Store κ ν} {key other : κ} (different : other ≠ key) :
    delete store key other = store other :=
  Function.update_of_ne different ..

end Keyspace
