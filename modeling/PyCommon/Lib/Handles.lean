import Mathlib.Data.List.Nodup
import PyCommon.Lib.Runs

/-!
# A slot for one handle

An object that keeps one open handle at a time in a field: a session, a connection, a running
server. Handles are numbered as they are made. Acquiring puts a new handle in the field, whatever
is there; releasing ends the handle that is there and empties the field.

A handle is lost when it has been made, is in the field no longer and was never ended: nothing
can end it any more. A slot loses a handle only where one is acquired while another is held, so no
handle is lost along a run exactly when each acquisition finds the field empty
(`noneLost_iff`).

A slot may stand beside a register that others read: a global that is set once. The register takes
the first handle it is given and keeps it. The handle that is held is the one others reach, in
every state of a run, exactly when each handle is made before any other was registered, and is
registered (`reaches_iff`).

Where handles are opened and ended across awaits, the field is filled and emptied by whichever call
comes to it. Every handle that has yet to be ended is the one in the field, in every state of a
run, exactly when each move that fills or empties the field finds no other such handle
(`kept_iff`).
-/

set_option autoImplicit false

namespace Handles

open StepSystem

/-! ## Slots -/

/-- The handle in the field, how many were made, and those that were ended, in order. -/
structure Slot where
  made : ℕ
  held : Option ℕ
  ended : List ℕ
  held_lt : ∀ id ∈ held, id < made
  ended_lt : ∀ id ∈ ended, id < made
  held_open : ∀ id ∈ held, id ∉ ended
  nodup : ended.Nodup
  deriving DecidableEq

namespace Slot

def empty : Slot where
  made := 0
  held := none
  ended := []
  held_lt := fun id held => absurd held (Option.not_mem_none id)
  ended_lt := fun _ ended => absurd ended List.not_mem_nil
  held_open := fun id held => absurd held (Option.not_mem_none id)
  nodup := List.nodup_nil

variable (s : Slot)

theorem lt_made_succ {id : ℕ} (held : id ∈ some s.made) : id < s.made + 1 :=
  Option.some.inj held ▸ Nat.lt_succ_self _

theorem made_notMem_ended {id : ℕ} (held : id ∈ some s.made) : id ∉ s.ended := fun ended =>
  Nat.lt_irrefl _ (Option.some.inj held ▸ s.ended_lt id ended)

/-- Make a new handle and put it in the field. -/
def acquire : Slot where
  made := s.made + 1
  held := some s.made
  ended := s.ended
  held_lt := fun _ held => s.lt_made_succ held
  ended_lt := fun id ended => Nat.lt_succ_of_lt (s.ended_lt id ended)
  held_open := fun _ held => s.made_notMem_ended held
  nodup := s.nodup

theorem lt_of_released {id : ℕ} (ended : id ∈ s.ended ++ s.held.toList) : id < s.made :=
  (List.mem_append.mp ended).elim (s.ended_lt id) fun held =>
    s.held_lt id (Option.mem_toList.mp held)

theorem nodup_released : (s.ended ++ s.held.toList).Nodup := by
  refine List.Nodup.append s.nodup ?_ ?_
  · cases s.held with
    | none => exact List.nodup_nil
    | some id => exact List.nodup_singleton id
  · intro id ended held
    exact s.held_open id (Option.mem_toList.mp held) ended

/-- End the handle in the field, if there is one, and empty the field. -/
def release : Slot where
  made := s.made
  held := none
  ended := s.ended ++ s.held.toList
  held_lt := fun id held => absurd held (Option.not_mem_none id)
  ended_lt := fun _ ended => s.lt_of_released ended
  held_open := fun id held => absurd held (Option.not_mem_none id)
  nodup := s.nodup_released

@[simp] theorem made_acquire : s.acquire.made = s.made + 1 := rfl
@[simp] theorem held_acquire : s.acquire.held = some s.made := rfl
@[simp] theorem ended_acquire : s.acquire.ended = s.ended := rfl
@[simp] theorem made_release : s.release.made = s.made := rfl
@[simp] theorem held_release : s.release.held = none := rfl
@[simp] theorem ended_release : s.release.ended = s.ended ++ s.held.toList := rfl

/-! ## Lost handles -/

/-- A handle that was made and is neither held nor ended. -/
def Lost (id : ℕ) : Prop := id < s.made ∧ s.held ≠ some id ∧ id ∉ s.ended

/-- Every handle made is held or ended. -/
def NoneLost : Prop := ∀ id, ¬ s.Lost id

variable {s}

theorem lost_release_iff {id : ℕ} : s.release.Lost id ↔ s.Lost id := by
  have held : id ∈ s.held.toList ↔ s.held = some id := Option.mem_toList
  simp only [Lost, made_release, held_release, ended_release, List.mem_append, not_or, held]
  constructor
  · rintro ⟨made, -, ended, apart⟩
    exact ⟨made, apart, ended⟩
  · rintro ⟨made, apart, ended⟩
    exact ⟨made, Option.some_ne_none id ∘ Eq.symm, ended, apart⟩

/-- Acquiring loses what is held, and nothing else. -/
theorem lost_acquire_iff {id : ℕ} : s.acquire.Lost id ↔ s.Lost id ∨ s.held = some id := by
  simp only [Lost, made_acquire, held_acquire, ended_acquire]
  constructor
  · rintro ⟨made, apart, ended⟩
    have below : id < s.made := by
      have other : id ≠ s.made := fun same => apart (congrArg some same.symm)
      omega
    by_cases held : s.held = some id
    · exact .inr held
    · exact .inl ⟨below, held, ended⟩
  · rintro (⟨made, apart, ended⟩ | held)
    · exact ⟨Nat.lt_succ_of_lt made, fun same => Nat.ne_of_gt made (Option.some.inj same), ended⟩
    · have made := s.held_lt id held
      exact ⟨Nat.lt_succ_of_lt made, fun same => Nat.ne_of_gt made (Option.some.inj same),
        s.held_open id held⟩

theorem noneLost_empty : empty.NoneLost := fun _ lost => Nat.not_lt_zero _ lost.1

theorem noneLost_release (safe : s.NoneLost) : s.release.NoneLost := fun id lost =>
  safe id (lost_release_iff.mp lost)

theorem noneLost_acquire_iff (safe : s.NoneLost) : s.acquire.NoneLost ↔ s.held = none := by
  constructor
  · intro after
    cases held : s.held with
    | none => rfl
    | some id => exact absurd (lost_acquire_iff.mpr (.inr held)) (after id)
  · intro free id lost
    rcases lost_acquire_iff.mp lost with earlier | held
    · exact safe id earlier
    · exact Option.some_ne_none id (held.symm.trans free)

end Slot

/-! ## Systems with a slot -/

section Runs

variable {State Label : Type*} {step : State → Label → Option State} (slot : State → Slot)
  (acquires : State → Label → Prop)

/-- **No handle is lost along a run exactly when each acquisition finds the field empty.** The
condition names the labels that acquire: they leave the slot with a new handle, and the others
keep it or release it. -/
theorem noneLost_iff
    (acquired : ∀ s l next, acquires s l → step s l = some next →
      slot next = (slot s).acquire)
    (others : ∀ s l next, ¬ acquires s l → step s l = some next →
      slot next = slot s ∨ slot next = (slot s).release)
    {s t : State} {ls : List Label} (run : exec step s ls = some t) (start : (slot s).NoneLost) :
    EveryState step (fun s => (slot s).NoneLost) s ls ↔
      EveryStep step (fun s l => acquires s l → (slot s).held = none) s ls := by
  have keeps : ∀ s l next, ¬ acquires s l → step s l = some next → (slot s).NoneLost →
      (slot next).NoneLost := by
    intro s l next other taken safe
    rcases others s l next other taken with same | released
    · rwa [same]
    · rw [released]
      exact Slot.noneLost_release safe
  refine everyState_iff_everyStep (fun _ safe => safe) ?_ ?_ run
    (everyStep_of_forall_mem (fun _ _ _ => trivial) s) start
  · intro s l next _ free safe taken
    by_cases takes : acquires s l
    · rw [acquired s l next takes taken]
      exact (Slot.noneLost_acquire_iff safe).mpr (free takes)
    · exact keeps s l next takes taken safe
  · intro s l next _ occupied safe taken
    obtain ⟨takes, full⟩ := Classical.not_imp.mp occupied
    rw [acquired s l next takes taken]
    exact fun after => full ((Slot.noneLost_acquire_iff safe).mp after)

end Runs

/-! ## Slots beside a register -/

/-- A slot, and the register that keeps the first handle it was given. -/
structure Registered where
  slot : Slot
  registered : Option ℕ
  registered_lt : ∀ id ∈ registered, id < slot.made
  deriving DecidableEq

namespace Registered

def empty : Registered where
  slot := .empty
  registered := none
  registered_lt := fun id given => absurd given (Option.not_mem_none id)

variable (s : Registered)

theorem lt_of_registered {id : ℕ} {registers : Bool}
    (given : id ∈ s.registered.or (if registers then some s.slot.made else none)) :
    id < s.slot.acquire.made := by
  rcases Option.or_eq_some_iff.mp given with before | ⟨-, now⟩
  · exact Nat.lt_succ_of_lt (s.registered_lt id before)
  · cases registers with
    | false => exact absurd now (Option.not_mem_none id)
    | true => exact s.slot.lt_made_succ now

/-- Make a new handle, and give it to the register or not. -/
def make (registers : Bool) : Registered where
  slot := s.slot.acquire
  registered := s.registered.or (if registers then some s.slot.made else none)
  registered_lt := fun _ given => s.lt_of_registered given

/-- End the handle that is held. The register keeps what it has. -/
def release : Registered where
  slot := s.slot.release
  registered := s.registered
  registered_lt := s.registered_lt

@[simp] theorem slot_make (registers : Bool) : (s.make registers).slot = s.slot.acquire := rfl
@[simp] theorem slot_release : s.release.slot = s.slot.release := rfl

/-- What is held is what the register names. -/
def Reaches : Prop := ∀ id ∈ s.slot.held, s.registered = some id

theorem reaches_empty : empty.Reaches := fun id held => absurd held (Option.not_mem_none id)

theorem reaches_release : s.release.Reaches := fun id held => absurd held (Option.not_mem_none id)

/-- A new handle is reached exactly when it is registered and none was before it: what the
register has is older than the new handle. -/
theorem reaches_make_iff (registers : Bool) :
    (s.make registers).Reaches ↔ s.registered = none ∧ registers = true := by
  constructor
  · intro reaches
    have named : s.registered.or (if registers then some s.slot.made else none) =
        some s.slot.made := reaches s.slot.made rfl
    cases before : s.registered with
    | none =>
        refine ⟨rfl, ?_⟩
        by_contra kept
        rw [before, eq_false_of_ne_true kept] at named
        cases named
    | some id =>
        rw [before] at named
        have old := s.registered_lt id before
        exact absurd (Option.some.inj named) (Nat.ne_of_lt old)
  · rintro ⟨before, rfl⟩ id held
    have named : s.registered.or (some s.slot.made) = some s.slot.made := by
      rw [before]
      rfl
    exact named.trans held

end Registered

section Reaching

variable {State Label : Type*} {step : State → Label → Option State}
  (signal : State → Registered) (makes : State → Label → Option Bool)

/-- **What is held is what others reach, in every state, exactly when each handle is registered
and made before any other was.** The condition names the labels that make a handle, and whether
they register it. -/
theorem reaches_iff
    (made : ∀ s l next registers, makes s l = some registers → step s l = some next →
      signal next = (signal s).make registers)
    (others : ∀ s l next, makes s l = none → step s l = some next →
      signal next = signal s ∨ signal next = (signal s).release)
    {s t : State} {ls : List Label} (run : exec step s ls = some t)
    (start : (signal s).Reaches) :
    EveryState step (fun s => (signal s).Reaches) s ls ↔
      EveryStep step (fun s l => ∀ registers ∈ makes s l,
        (signal s).registered = none ∧ registers = true) s ls := by
  refine everyState_iff_everyStep (fun _ reaches => reaches) ?_ ?_ run
    (everyStep_of_forall_mem (fun _ _ _ => trivial) s) start
  · intro s l next _ first reaches taken
    cases makes' : makes s l with
    | none =>
        rcases others s l next makes' taken with same | released
        · rwa [same]
        · rw [released]
          exact (signal s).reaches_release
    | some registers =>
        rw [made s l next registers makes' taken]
        exact ((signal s).reaches_make_iff registers).mpr (first registers makes')
  · intro s l next _ late _ taken after
    refine late fun registers makes' => ?_
    rw [made s l next registers makes' taken] at after
    exact ((signal s).reaches_make_iff registers).mp after

end Reaching

/-! ## Fields across awaits -/

/-- A field for a handle, and the handles that have yet to be ended. Nothing ties the two. -/
structure Field where
  held : Option ℕ := none
  live : List ℕ := []
  deriving DecidableEq

/-- What a step does to a field and to the handles: it fills the field with a handle, is done with
a handle that is not looked up in the field, or empties the field and may end a handle. -/
inductive Move where
  | keep
  | put (id : ℕ)
  | drop (id : ℕ)
  | clear (ended : Option ℕ)
  deriving DecidableEq

namespace Field

variable (f : Field)

def after : Move → Field
  | .keep => f
  | .put id => { held := some id, live := id :: f.live }
  | .drop id => { f with live := f.live.filter (· ≠ id) }
  | .clear ended => { held := none, live := f.live.filter (ended ≠ some ·) }

/-- Every handle that has yet to be ended is in the field. -/
def Kept : Prop := ∀ id ∈ f.live, f.held = some id

/-- A move that fills or empties the field finds no other handle that has yet to be ended. -/
def Alone : Move → Prop
  | .keep => True
  | .put id => ∀ other ∈ f.live, other = id
  | .drop _ => True
  | .clear ended => ∀ other ∈ f.live, ended = some other

instance Alone.decidable : ∀ move, Decidable (f.Alone move)
  | .keep => isTrue trivial
  | .put id => inferInstanceAs (Decidable (∀ other ∈ f.live, other = id))
  | .drop _ => isTrue trivial
  | .clear ended => inferInstanceAs (Decidable (∀ other ∈ f.live, ended = some other))

theorem kept_empty : ({} : Field).Kept := fun _ member => absurd member List.not_mem_nil

variable {f}

theorem kept_after_iff (kept : f.Kept) (move : Move) : (f.after move).Kept ↔ f.Alone move := by
  cases move with
  | keep => exact iff_of_true kept trivial
  | put id =>
      constructor
      · intro after other member
        exact (Option.some.inj (after other (List.mem_cons_of_mem id member))).symm
      · intro alone other member
        rcases List.mem_cons.mp member with rfl | before
        · rfl
        · rw [alone other before]
          rfl
  | drop id =>
      exact iff_of_true (fun other member => kept other (List.mem_of_mem_filter member)) trivial
  | clear ended =>
      constructor
      · intro after other member
        by_contra stays
        have left : other ∈ (f.after (.clear ended)).live :=
          List.mem_filter.mpr ⟨member, decide_eq_true stays⟩
        exact Option.some_ne_none other (after other left).symm
      · intro alone other member
        obtain ⟨before, apart⟩ := List.mem_filter.mp member
        exact absurd (alone other before) (of_decide_eq_true apart)

end Field

section Keeping

variable {State Label : Type*} {step : State → Label → Option State} (field : State → Field)
  (move : State → Label → Move)

/-- **Every handle that has yet to be ended is in the field, in every state, exactly when each move
that fills or empties the field finds no other.** -/
theorem kept_iff
    (moves : ∀ s l next, step s l = some next → field next = (field s).after (move s l))
    {s t : State} {ls : List Label} (run : exec step s ls = some t) (start : (field s).Kept) :
    EveryState step (fun s => (field s).Kept) s ls ↔
      EveryStep step (fun s l => (field s).Alone (move s l)) s ls := by
  refine everyState_iff_everyStep (fun _ kept => kept) ?_ ?_ run
    (everyStep_of_forall_mem (fun _ _ _ => trivial) s) start
  · intro s l next _ alone kept taken
    rw [moves s l next taken]
    exact (Field.kept_after_iff kept (move s l)).mpr alone
  · intro s l next _ crowded kept taken after
    rw [moves s l next taken] at after
    exact crowded ((Field.kept_after_iff kept (move s l)).mp after)

end Keeping

end Handles
