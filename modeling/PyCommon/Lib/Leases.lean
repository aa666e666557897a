import Mathlib.Order.Lattice

/-!
# Leases

A cell that holds at most one lease, which is a token and a deadline. A lease is granted when
no other is live, and can be renewed and dropped by its own token only. Times are taken in
any linear order.

What a holder can rely on is a time until which the cell has its token (`Holds`). What is done
under other tokens does not take that away (`Holds.grant`, `Holds.renew`, `Holds.drop`), so of
two holders neither of which has run out, each is the other (`Holds.unique`).
-/

set_option autoImplicit false

namespace Leases

universe u v

/-- A lease of `Token`, with its deadline. -/
structure Lease (Token : Type u) (T : Type v) where
  token : Token
  deadline : T
  deriving DecidableEq

variable {Token : Type u} {T : Type v} [LinearOrder T]

/-! ## Operations -/

/-- The lease, if it has not run out. -/
def live (now : T) (cell : Option (Lease Token T)) : Option (Lease Token T) :=
  cell.filter fun lease => now ≤ lease.deadline

/-- A new lease, unless one is live. -/
def grant (now deadline : T) (token : Token) (cell : Option (Lease Token T)) :
    Option (Lease Token T) :=
  if (live now cell).isSome then none else some ⟨token, deadline⟩

/-- Until `ends` the cell has a lease of the token. -/
def Holds (now : T) (cell : Option (Lease Token T)) (token : Token) (ends : T) : Prop :=
  now ≤ ends → ∃ lease ∈ cell, lease.token = token ∧ ends ≤ lease.deadline

section Holds

variable {now ends deadline : T} {token other : Token} {cell : Option (Lease Token T)}

/-- What a holder that has not run out finds. -/
theorem Holds.live_eq (holds : Holds now cell token ends) (within : now ≤ ends) :
    ∃ lease, live now cell = some lease ∧ lease.token = token := by
  obtain ⟨lease, found, own, long⟩ := holds within
  obtain rfl := Option.mem_def.mp found
  exact ⟨lease, Option.filter_eq_some_iff.mpr ⟨rfl, decide_eq_true (within.trans long)⟩, own⟩

theorem Holds.later {after : T} (holds : Holds now cell token ends) (ordered : now ≤ after) :
    Holds after cell token ends := fun within => holds (ordered.trans within)

/-- **There is one holder.** -/
theorem Holds.unique {ends' : T} (first : Holds now cell token ends)
    (second : Holds now cell other ends') (within : now ≤ ends) (within' : now ≤ ends') :
    token = other := by
  obtain ⟨lease, found, own⟩ := first.live_eq within
  obtain ⟨lease', found', own'⟩ := second.live_eq within'
  obtain rfl := Option.some.inj (found.symm.trans found')
  exact own.symm.trans own'

theorem holds_self : Holds now (some ⟨token, deadline⟩) token deadline :=
  fun _ => ⟨_, rfl, rfl, le_rfl⟩

/-- Nothing is granted to another while a holder has not run out. -/
theorem Holds.grant {lease : Lease Token T} (holds : Holds now cell token ends)
    (granted : grant now deadline other cell = some lease) :
    Holds now (some lease) token ends := by
  intro within
  obtain ⟨old, found, _⟩ := holds.live_eq within
  rw [Leases.grant, found] at granted
  cases granted

/-- Removing a lease that has run out makes no difference. -/
theorem Holds.live (holds : Holds now cell token ends) : Holds now (live now cell) token ends := by
  intro within
  obtain ⟨lease, found, own, long⟩ := holds within
  refine ⟨lease, Option.filter_eq_some_iff.mpr ⟨found, ?_⟩, own, long⟩
  exact decide_eq_true (within.trans long)

end Holds

/-! ## What other tokens can do -/

section Tokens

variable [DecidableEq Token]

/-- Whether the live lease is that of the token. -/
def owns (now : T) (token : Token) (cell : Option (Lease Token T)) : Bool :=
  (live now cell).any fun lease => lease.token = token

/-- A new deadline for the token's own lease. -/
def renew (now deadline : T) (token : Token) (cell : Option (Lease Token T)) :
    Option (Lease Token T) :=
  if owns now token cell then some ⟨token, deadline⟩ else cell

/-- The end of the token's own lease. -/
def drop (now : T) (token : Token) (cell : Option (Lease Token T)) : Option (Lease Token T) :=
  if owns now token cell then none else cell

variable {now ends deadline : T} {token other : Token} {cell : Option (Lease Token T)}

theorem Holds.owns_eq (holds : Holds now cell token ends) (within : now ≤ ends) :
    owns now other cell = decide (token = other) := by
  obtain ⟨lease, found, own⟩ := holds.live_eq within
  rw [owns, found, Option.any_some, own]

/-- Renewing another lease makes no difference. -/
theorem Holds.renew (holds : Holds now cell token ends) (apart : token ≠ other) :
    Holds now (renew now deadline other cell) token ends := by
  intro within
  have foreign : owns now other cell = false := by
    rw [holds.owns_eq within, decide_eq_false apart]
  rw [Leases.renew, foreign]
  exact holds within

/-- Renewing a lease that has not run out moves its end. -/
theorem holds_renew_self (own : owns now token cell = true) :
    Holds now (renew now deadline token cell) token deadline := by
  rw [Leases.renew, if_pos own]
  exact holds_self

/-- A lease that has run out is not renewed. -/
theorem renew_of_not_owns (foreign : owns now token cell = false) :
    renew now deadline token cell = cell := by
  rw [Leases.renew, foreign]
  rfl

/-- Dropping another lease makes no difference. -/
theorem Holds.drop (holds : Holds now cell token ends) (apart : token ≠ other) :
    Holds now (drop now other cell) token ends := by
  intro within
  have foreign : owns now other cell = false := by
    rw [holds.owns_eq within, decide_eq_false apart]
  rw [Leases.drop, foreign]
  exact holds within

end Tokens

end Leases
