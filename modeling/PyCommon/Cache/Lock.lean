import Mathlib.Algebra.Order.Ring.Rat
import Mathlib.Tactic.Linarith
import PyCommon.Lib.Leases
import PyCommon.Lib.Runs

/-!
# The distributed lock

Any number of contenders use `redis_lock` on one key. The lock is a lease in Redis
(`Leases`): `SET NX PX` grants it under a token of its own, and extending and releasing check
the token. Redis removes a key once its deadline has passed. Redis executes a command at one
time and its answer is read at a later one. A contender with `auto_extend` runs a loop beside
its block that sleeps for half the time to live and then extends the lease, as often as it can,
until it is cancelled when the block is left. The loop sleeps again when it has the answer, so
that an extend falls due later for everything that was late before it.

A contender has the lease until a time that is no earlier than `ttl` after its `SET NX` was
executed and, while its loop is in time, has not come yet (`Covered`). The loop is in time if
the delay of its extend, and of the answer before it, is less than half of `ttl`
(`Holder.InTime`). So as long as every contender inside keeps within the one or the other, at
most one is inside (`mutual_exclusion`). It is not enough that no extend takes effect half of
`ttl` after it falls due (`late_answer_admits_two`).
-/

set_option autoImplicit false

namespace PyCommon.RedisLock

open Leases StepSystem

/-! ## Contenders -/

/-- The `_auto_extend_loop`: a task that has not begun, asleep until an extend falls due, with
an extend that Redis has not executed yet, with one that it has, whose answer is on its way, or
at its end. At its end an extend may be left that Redis executes after all. -/
inductive ExtendLoop where
  | created
  | sleeping (due : ℚ)
  | extending (due : ℚ)
  | answering (executedAt : ℚ) (owned : Bool)
  | stopped (inFlight : Bool)
  deriving DecidableEq

/-- The loop is cancelled. -/
def ExtendLoop.cancelled : ExtendLoop → ExtendLoop
  | .extending _ => .stopped true
  | .stopped inFlight => .stopped inFlight
  | _ => .stopped false

/-- Where a contender stands whose `SET NX` was granted: before the answer, in the guarded
block, past the block but before the release, or past the release. -/
inductive Stands where
  | entering
  | inside
  | leaving
  | released
  deriving DecidableEq

/-- A contender whose `SET NX` was granted. `loop` is `none` without `auto_extend` and before
the block, and `lag` is how long the loop had to wait for the last answer. -/
structure Holder where
  acquiredAt : ℚ
  autoExtend : Bool
  loop : Option ExtendLoop := none
  lag : ℚ := 0
  stands : Stands := .entering
  deriving DecidableEq

/-- `lock.acquire()` returns: the task of the loop is created, and the block begins. -/
def Holder.enter (h : Holder) : Option Holder :=
  match h.stands with
  | .entering =>
      some { h with stands := .inside, loop := if h.autoExtend then some .created else none }
  | _ => none

/-- The task of the loop begins to run, and the loop to sleep. -/
def Holder.begin (ttl now : ℚ) (h : Holder) : Option Holder :=
  match h.stands, h.loop with
  | .inside, some .created =>
      some { h with loop := some (.sleeping (now + ttl / 2)), lag := now - h.acquiredAt }
  | _, _ => none

/-- The sleep of the loop ends, and an extend is sent. -/
def Holder.wake (now : ℚ) (h : Holder) : Option Holder :=
  match h.stands, h.loop with
  | .inside, some (.sleeping due) =>
      if due ≤ now then some { h with loop := some (.extending due) } else none
  | _, _ => none

/-- Redis executes the extend. -/
def Holder.extended (now : ℚ) (owned : Bool) (h : Holder) : Option Holder :=
  match h.stands, h.loop with
  | .inside, some (.extending _) => some { h with loop := some (.answering now owned) }
  | _, _ => none

/-- The extend is answered: the loop sleeps again, or ends with a `LockError`. -/
def Holder.answered (ttl now : ℚ) (h : Holder) : Option Holder :=
  match h.stands, h.loop with
  | .inside, some (.answering executedAt true) =>
      some { h with loop := some (.sleeping (now + ttl / 2)), lag := now - executedAt }
  | .inside, some (.answering _ false) => some { h with loop := some (.stopped false) }
  | _, _ => none

/-- The extend raises something else, executed or not, and the loop ends. -/
def Holder.failed (h : Holder) : Option Holder :=
  match h.stands, h.loop with
  | .inside, some (.extending _) => some { h with loop := some (.stopped true) }
  | .inside, some (.answering _ _) => some { h with loop := some (.stopped false) }
  | _, _ => none

/-- The block ends, by an exception or not, and the loop is cancelled. -/
def Holder.leave (h : Holder) : Option Holder :=
  match h.stands with
  | .inside => some { h with stands := .leaving, loop := h.loop.map ExtendLoop.cancelled }
  | _ => none

/-- An extend that was in flight at the end of the loop is executed after all. -/
def Holder.strayed (h : Holder) : Option Holder :=
  match h.loop with
  | some (.stopped true) => some { h with loop := some (.stopped false) }
  | _ => none

def Holder.release (h : Holder) : Option Holder :=
  match h.stands with
  | .leaving => some { h with stands := .released }
  | _ => none

/-! ## The system -/

/-- Redis, whose key holds the lease of the contender with that number, and the contenders
whose `SET NX` was granted, in order. -/
structure System where
  now : ℚ
  key : Option (Lease ℕ ℚ) := none
  holders : List Holder := []
  deriving DecidableEq

inductive Event where
  | elapse (d : ℚ)
  | acquire (autoExtend : Bool)
  | enter (i : ℕ)
  | begin (i : ℕ)
  | expire
  | wake (i : ℕ)
  | extend (i : ℕ)
  | answer (i : ℕ)
  | extendError (i : ℕ)
  | leave (i : ℕ)
  | strayExtend (i : ℕ)
  | release (i : ℕ)
  deriving DecidableEq

/-- Something happens to one holder and to the key. -/
def System.act (s : System) (i : ℕ) (key : Option (Lease ℕ ℚ)) (change : Holder → Option Holder) :
    Option System :=
  (s.holders[i]?.bind change).map fun h => { s with key, holders := s.holders.set i h }

/-- The `SET NX` of another contender is executed, which gets the lock unless the key is there. -/
def System.join (ttl : ℚ) (s : System) (h : Holder) : System :=
  match grant s.now (s.now + ttl) s.holders.length s.key with
  | none => s
  | some lease => { s with key := some lease, holders := s.holders ++ [h] }

/-- A contender that is refused may try again or give up, and one that is not may never come to
know of it. -/
def step (ttl : ℚ) (s : System) : Event → Option System
  | .elapse d => if 0 ≤ d then some { s with now := s.now + d } else none
  | .acquire autoExtend => some (s.join ttl { acquiredAt := s.now, autoExtend })
  | .enter i => s.act i s.key Holder.enter
  | .begin i => s.act i s.key (Holder.begin ttl s.now)
  | .expire => some { s with key := live s.now s.key }
  | .wake i => s.act i s.key (Holder.wake s.now)
  | .extend i =>
      s.act i (renew s.now (s.now + ttl) i s.key) (Holder.extended s.now (owns s.now i s.key))
  | .answer i => s.act i s.key (Holder.answered ttl s.now)
  | .extendError i => s.act i s.key Holder.failed
  | .leave i => s.act i s.key Holder.leave
  | .strayExtend i => s.act i (renew s.now (s.now + ttl) i s.key) Holder.strayed
  | .release i => s.act i (drop s.now i s.key) Holder.release

/-- A contender is in its guarded block. -/
def System.Inside (s : System) (i : ℕ) : Prop :=
  ∃ h, s.holders[i]? = some h ∧ h.stands = .inside

def AtMostOneInside (s : System) : Prop := ∀ i j, s.Inside i → s.Inside j → i = j

instance (s : System) (i : ℕ) : Decidable (s.Inside i) :=
  inferInstanceAs (Decidable (∃ h ∈ s.holders[i]?, h.stands = .inside))

theorem System.Inside.lt_length {s : System} {i : ℕ} (inside : s.Inside i) :
    i < s.holders.length := by
  obtain ⟨h, there, -⟩ := inside
  exact (List.getElem?_eq_some_iff.mp there).1

instance (s : System) : Decidable (AtMostOneInside s) :=
  decidable_of_iff (∀ i < s.holders.length, ∀ j < s.holders.length,
      s.Inside i → s.Inside j → i = j)
    ⟨fun each i j first second => each i first.lt_length j second.lt_length first second,
      fun atMostOne i _ j _ => atMostOne i j⟩

/-- The extend of the loop has been due for less than `ttl / 2`, the time counted with it that
the loop had to wait for the answer before it, which was to the `SET NX` or to another extend.
While an answer is on its way it is less than `ttl` that the loop waits for it. -/
def Holder.InTime (ttl now : ℚ) (h : Holder) : Prop :=
  match h.loop with
  | some (.sleeping due) => h.lag + (now - due) < ttl / 2
  | some (.extending due) => h.lag + (now - due) < ttl / 2
  | some (.answering executedAt owned) => owned = true ∧ now - executedAt < ttl
  | _ => False

/-- A contender inside is within `ttl` of when its `SET NX` was executed, or its loop is in
time. -/
def Holder.Timely (ttl now : ℚ) (h : Holder) : Prop :=
  h.stands = .inside → now ≤ h.acquiredAt + ttl ∨ h.InTime ttl now

def AllTimely (ttl : ℚ) (s : System) : Prop := ∀ h ∈ s.holders, h.Timely ttl s.now

instance (ttl now : ℚ) (h : Holder) : Decidable (h.InTime ttl now) := by
  unfold Holder.InTime
  split <;> infer_instance

instance (ttl now : ℚ) (h : Holder) : Decidable (h.Timely ttl now) :=
  inferInstanceAs (Decidable (h.stands = .inside →
    now ≤ h.acquiredAt + ttl ∨ h.InTime ttl now))

instance (ttl : ℚ) (s : System) : Decidable (AllTimely ttl s) :=
  inferInstanceAs (Decidable (∀ h ∈ s.holders, h.Timely ttl s.now))

/-! ## What a contender can rely on -/

/-- The lease of a contender outlasts `ttl` from when its `SET NX` was executed, and every time
at which its loop is in time. -/
structure Covered (ttl now : ℚ) (key : Option (Lease ℕ ℚ)) (i : ℕ) (h : Holder) : Prop where
  acquired : h.acquiredAt ≤ now
  leased : ∃ ends, Holds now key i ends ∧ h.acquiredAt + ttl ≤ ends ∧
    ∀ t, h.InTime ttl t → t ≤ ends

/-- The contender is in the block or on its way there. -/
def Holder.Present (h : Holder) : Prop := h.stands = .entering ∨ h.stands = .inside

def AllCovered (ttl : ℚ) (s : System) : Prop :=
  ∀ i h, s.holders[i]? = some h → h.Present → Covered ttl s.now s.key i h

variable {ttl now : ℚ} {key key' : Option (Lease ℕ ℚ)} {i : ℕ} {h h' : Holder} {s next : System}

/-- What keeps the lease of a contender keeps it covered. -/
theorem Covered.of_holds {now' : ℚ} (covered : Covered ttl now key i h) (ordered : now ≤ now')
    (kept : ∀ ends, Holds now key i ends → Holds now' key' i ends) : Covered ttl now' key' i h := by
  obtain ⟨ends, holds, ofAcquired, inTime⟩ := covered.leased
  exact ⟨covered.acquired.trans ordered, ends, kept ends holds, ofAcquired, inTime⟩

/-- A contender goes on without Redis. It is no later present than before, and in time for no
longer than before or than `ttl` after its `SET NX`. -/
structure Settles (ttl : ℚ) (h h' : Holder) : Prop where
  present : h'.Present → h.Present
  acquiredAt : h'.acquiredAt = h.acquiredAt
  inTime : ∀ t, h'.InTime ttl t → h.InTime ttl t ∨ t ≤ h.acquiredAt + ttl

theorem Covered.settles (covered : Covered ttl now key i h) (settled : Settles ttl h h')
    (kept : ∀ ends, Holds now key i ends → Holds now key' i ends) :
    Covered ttl now key' i h' := by
  obtain ⟨ends, holds, ofAcquired, inTime⟩ := covered.leased
  refine ⟨settled.acquiredAt ▸ covered.acquired, ends, kept ends holds,
    settled.acquiredAt ▸ ofAcquired, fun t timely => ?_⟩
  rcases settled.inTime t timely with before | early
  · exact inTime t before
  · exact early.trans ofAcquired

/-- An extend that takes effect covers the contender for `ttl`. -/
theorem Covered.renewed (covered : Covered ttl now key i h) (own : owns now i key = true)
    (same : h'.acquiredAt = h.acquiredAt) (until_ : ∀ t, h'.InTime ttl t → t ≤ now + ttl) :
    Covered ttl now (renew now (now + ttl) i key) i h' := by
  refine ⟨same ▸ covered.acquired, now + ttl, holds_renew_self own, ?_, until_⟩
  rw [same]
  linarith [covered.acquired]

/-- One holder changes, and the others keep their leases. -/
theorem AllCovered.act {change : Holder → Option Holder} (all : AllCovered ttl s)
    (taken : s.act i key' change = some next)
    (others : ∀ j ends, j ≠ i → Holds s.now s.key j ends → Holds s.now key' j ends)
    (own : ∀ h h', change h = some h' → h'.Present →
      h.Present ∧ (Covered ttl s.now s.key i h → Covered ttl s.now key' i h')) :
    AllCovered ttl next := by
  obtain ⟨changed, found, rfl⟩ := Option.map_eq_some_iff.mp taken
  obtain ⟨before, here, change_eq⟩ := Option.bind_eq_some_iff.mp found
  intro j h there present
  by_cases same : j = i
  · subst same
    have within : j < s.holders.length := (List.getElem?_eq_some_iff.mp here).1
    rw [List.getElem?_set_self within] at there
    obtain rfl := Option.some.inj there
    obtain ⟨wasPresent, covers⟩ := own before changed change_eq present
    exact covers (all j before here wasPresent)
  · rw [List.getElem?_set_ne (Ne.symm same)] at there
    exact (all j h there present).of_holds le_rfl fun ends => others j ends same

/-- What a contender does without Redis keeps all covered. -/
theorem AllCovered.settles {change : Holder → Option Holder} (all : AllCovered ttl s)
    (taken : s.act i s.key change = some next)
    (settled : ∀ h h', change h = some h' → Settles ttl h h') : AllCovered ttl next :=
  all.act taken (fun _ _ _ holds => holds) fun h h' changed present =>
    ⟨(settled h h' changed).present present, fun covered =>
      covered.settles (settled h h' changed) fun _ holds => holds⟩

/-- A contender whose `SET NX` is granted is covered. -/
theorem AllCovered.join (all : AllCovered ttl s) (autoExtend : Bool) :
    AllCovered ttl (s.join ttl { acquiredAt := s.now, autoExtend }) := by
  rw [System.join]
  split
  · exact all
  · rename_i lease granted
    intro j g there present
    rcases Nat.lt_trichotomy j s.holders.length with older | newest | beyond
    · rw [List.getElem?_append_left older] at there
      exact (all j g there present).of_holds le_rfl fun ends holds => holds.grant granted
    · subst newest
      rw [List.getElem?_concat_length] at there
      obtain rfl := Option.some.inj there
      have own : lease = ⟨s.holders.length, s.now + ttl⟩ := by
        rw [grant] at granted
        split at granted
        · cases granted
        · exact (Option.some.inj granted).symm
      exact ⟨le_rfl, s.now + ttl, own ▸ holds_self, le_rfl, fun t inTime => inTime.elim⟩
    · rw [List.getElem?_eq_none (by rw [List.length_append]; exact beyond)] at there
      cases there

/-! ### What a change of a holder keeps -/

theorem settles_enter (changed : h.enter = some h') : Settles ttl h h' := by
  unfold Holder.enter at changed
  split at changed
  · rename_i entering
    obtain rfl := Option.some.inj changed
    refine ⟨fun _ => .inl entering, rfl, fun t inTime => ?_⟩
    cases on : h.autoExtend with
    | true => simp [Holder.InTime, on] at inTime
    | false => simp [Holder.InTime, on] at inTime
  · cases changed

/-- The first extend falls due as late as the answer to the `SET NX` was. -/
theorem settles_begin (changed : h.begin ttl now = some h') : Settles ttl h h' := by
  unfold Holder.begin at changed
  split at changed
  · rename_i inside _
    obtain rfl := Option.some.inj changed
    refine ⟨fun _ => .inr inside, rfl, fun t inTime => .inr ?_⟩
    have early : now - h.acquiredAt + (t - (now + ttl / 2)) < ttl / 2 := inTime
    linarith
  · cases changed

theorem settles_wake (changed : h.wake now = some h') : Settles ttl h h' := by
  unfold Holder.wake at changed
  split at changed
  · rename_i due inside asleep
    split at changed
    · obtain rfl := Option.some.inj changed
      refine ⟨fun _ => .inr inside, rfl, fun t inTime => .inl ?_⟩
      rw [Holder.InTime, asleep]
      exact inTime
    · cases changed
  · cases changed

/-- The next extend falls due as late as the answer to the extend was. -/
theorem settles_answered (changed : h.answered ttl now = some h') : Settles ttl h h' := by
  unfold Holder.answered at changed
  split at changed
  · rename_i executedAt inside answering
    obtain rfl := Option.some.inj changed
    refine ⟨fun _ => .inr inside, rfl, fun t inTime => .inl ?_⟩
    have early : now - executedAt + (t - (now + ttl / 2)) < ttl / 2 := inTime
    rw [Holder.InTime, answering]
    exact ⟨rfl, by linarith⟩
  · rename_i executedAt inside _
    obtain rfl := Option.some.inj changed
    exact ⟨fun _ => .inr inside, rfl, fun t inTime => inTime.elim⟩
  · cases changed

theorem settles_failed (changed : h.failed = some h') : Settles ttl h h' := by
  unfold Holder.failed at changed
  split at changed
  · rename_i inside _
    obtain rfl := Option.some.inj changed
    exact ⟨fun _ => .inr inside, rfl, fun t inTime => inTime.elim⟩
  · rename_i inside _
    obtain rfl := Option.some.inj changed
    exact ⟨fun _ => .inr inside, rfl, fun t inTime => inTime.elim⟩
  · cases changed

/-- An extend that is executed covers the contender, if the lock is still its own. -/
theorem extended_covers (changed : h.extended now (owns now i key) = some h') :
    h.Present ∧ (Covered ttl now key i h →
      Covered ttl now (renew now (now + ttl) i key) i h') := by
  unfold Holder.extended at changed
  split at changed
  · rename_i due inside _
    obtain rfl := Option.some.inj changed
    refine ⟨.inr inside, fun covered => ?_⟩
    cases owned : owns now i key with
    | true =>
        refine covered.renewed owned rfl fun t inTime => ?_
        have early : t - now < ttl := inTime.2
        linarith
    | false =>
        rw [renew_of_not_owns owned]
        refine covered.settles ⟨fun _ => .inr inside, rfl, fun t inTime => ?_⟩ fun _ holds => holds
        cases inTime.1
  · cases changed

/-- An extend that is executed after all takes nothing from the contender. -/
theorem strayed_covers (changed : h.strayed = some h') (present : h'.Present) :
    h.Present ∧ (Covered ttl now key i h →
      Covered ttl now (renew now (now + ttl) i key) i h') := by
  unfold Holder.strayed at changed
  split at changed
  · obtain rfl := Option.some.inj changed
    refine ⟨present, fun covered => ?_⟩
    cases owned : owns now i key with
    | true => exact covered.renewed owned rfl fun t inTime => inTime.elim
    | false =>
        rw [renew_of_not_owns owned]
        exact covered.settles ⟨fun _ => present, rfl, fun t inTime => inTime.elim⟩
          fun _ holds => holds
  · cases changed

theorem not_present_of_leave (changed : h.leave = some h') : ¬ h'.Present := by
  unfold Holder.leave at changed
  split at changed
  · obtain rfl := Option.some.inj changed
    rintro (entering | inside)
    · cases entering
    · cases inside
  · cases changed

theorem not_present_of_release (changed : h.release = some h') : ¬ h'.Present := by
  unfold Holder.release at changed
  split at changed
  · obtain rfl := Option.some.inj changed
    rintro (entering | inside)
    · cases entering
    · cases inside
  · cases changed

/-- **Every event keeps the contenders covered.** -/
theorem AllCovered.step {event : Event} (all : AllCovered ttl s)
    (taken : step ttl s event = some next) : AllCovered ttl next := by
  have renewed : ∀ {i} j ends, j ≠ i → Holds s.now s.key j ends →
      Holds s.now (renew s.now (s.now + ttl) i s.key) j ends :=
    fun j ends apart holds => holds.renew apart
  have dropped : ∀ {i} j ends, j ≠ i → Holds s.now s.key j ends →
      Holds s.now (drop s.now i s.key) j ends := fun j ends apart holds => holds.drop apart
  cases event with
  | elapse d =>
      simp only [RedisLock.step] at taken
      split at taken
      · rename_i forward
        obtain rfl := Option.some.inj taken
        have ordered : s.now ≤ s.now + d := by linarith
        exact fun i h there present =>
          (all i h there present).of_holds ordered fun ends holds => holds.later ordered
      · cases taken
  | acquire autoExtend =>
      obtain rfl := Option.some.inj taken
      exact all.join autoExtend
  | expire =>
      obtain rfl := Option.some.inj taken
      exact fun i h there present =>
        (all i h there present).of_holds le_rfl fun ends holds => holds.live
  | enter i => exact all.settles taken fun h h' changed => settles_enter changed
  | begin i => exact all.settles taken fun h h' changed => settles_begin changed
  | wake i => exact all.settles taken fun h h' changed => settles_wake changed
  | answer i => exact all.settles taken fun h h' changed => settles_answered changed
  | extendError i => exact all.settles taken fun h h' changed => settles_failed changed
  | extend i => exact all.act taken renewed fun h h' changed _ => extended_covers changed
  | strayExtend i =>
      exact all.act taken renewed fun h h' changed present => strayed_covers changed present
  | leave i =>
      exact all.act taken (fun _ _ _ holds => holds) fun h h' changed present =>
        absurd present (not_present_of_leave changed)
  | release i =>
      exact all.act taken dropped fun h h' changed present =>
        absurd present (not_present_of_release changed)

/-! ## Mutual exclusion -/

/-- Contenders that are covered and keep in time exclude each other. -/
theorem AllCovered.atMostOneInside (all : AllCovered ttl s) (timely : AllTimely ttl s) :
    AtMostOneInside s := by
  have within : ∀ i, s.Inside i → ∃ ends, Holds s.now s.key i ends ∧ s.now ≤ ends := by
    rintro i ⟨h, there, inside⟩
    obtain ⟨ends, holds, ofAcquired, inTime⟩ := (all i h there (.inr inside)).leased
    refine ⟨ends, holds, ?_⟩
    rcases timely h (List.mem_of_getElem? there) inside with early | running
    · exact early.trans ofAcquired
    · exact inTime s.now running
  intro i j inside inside'
  obtain ⟨ends, holds, early⟩ := within i inside
  obtain ⟨ends', holds', early'⟩ := within j inside'
  exact holds.unique holds' early early'

/-- **Mutual exclusion.** Along every run in which every contender inside its block is within
`ttl` of when its `SET NX` was executed, or has a loop that is in time, at most one contender is
inside. -/
theorem mutual_exclusion (ttl start : ℚ) (events : List Event)
    (timely : EveryState (step ttl) (AllTimely ttl) { now := start } events) :
    EveryState (step ttl) AtMostOneInside { now := start } events := by
  have preserved : ∀ s event next, AllCovered ttl s → step ttl s event = some next →
      AllCovered ttl next := fun s event next all taken => all.step taken
  have excludes : ∀ s, AllCovered ttl s → AllTimely ttl s → AtMostOneInside s :=
    fun s all timely => all.atMostOneInside timely
  have first : AllCovered ttl { now := start } := by
    intro i h there
    cases there
  exact EveryState.of_invariant preserved excludes timely first

/-- A contender extends once, three seconds late, is answered a second later, and a second one is
refused until the first has released. -/
def handOver : List Event :=
  [.acquire true, .enter 0, .begin 0, .elapse 5, .wake 0, .elapse 3, .extend 0, .elapse 1,
    .answer 0, .elapse 5, .acquire false, .leave 0, .release 0, .acquire false, .enter 1,
    .elapse 10, .leave 1]

theorem handOver_excludes :
    (exec (step 10) { now := 0 } handOver).isSome ∧
      EveryState (step 10) AtMostOneInside { now := 0 } handOver :=
  ⟨by decide +kernel, mutual_exclusion 10 0 handOver (by decide +kernel)⟩

/-! ## Late answers -/

/-- No extend has failed, or been due for as long as `ttl / 2` without having taken effect. -/
def Holder.Punctual (ttl now : ℚ) (h : Holder) : Prop :=
  match h.loop with
  | some .created => True
  | some (.sleeping due) => now < due + ttl / 2
  | some (.extending due) => now < due + ttl / 2
  | some (.answering _ owned) => owned = true
  | _ => False

/-- A contender inside is within `ttl` of when its `SET NX` was executed, or extends it
punctually. -/
def AllPunctual (ttl : ℚ) (s : System) : Prop :=
  ∀ h ∈ s.holders, h.stands = .inside → s.now ≤ h.acquiredAt + ttl ∨ h.Punctual ttl s.now

instance (ttl now : ℚ) (h : Holder) : Decidable (h.Punctual ttl now) := by
  unfold Holder.Punctual
  split <;> infer_instance

instance (ttl : ℚ) (s : System) : Decidable (AllPunctual ttl s) :=
  inferInstanceAs (Decidable (∀ h ∈ s.holders, h.stands = .inside →
    s.now ≤ h.acquiredAt + ttl ∨ h.Punctual ttl s.now))

/-- An extend takes effect when it falls due and is answered nine seconds later. So the next
one falls due after the lease has run out, and by then both contenders have left. -/
def lateAnswer : List Event :=
  [.acquire true, .enter 0, .begin 0, .elapse 5, .wake 0, .extend 0, .elapse 9, .answer 0,
    .elapse 2, .acquire false, .enter 1, .leave 0, .leave 1, .release 0, .release 1]

/-- **Punctual extends are not enough.** -/
theorem late_answer_admits_two :
    (exec (step 10) { now := 0 } lateAnswer).isSome ∧
      EveryState (step 10) (AllPunctual 10) { now := 0 } lateAnswer ∧
        ¬ EveryState (step 10) AtMostOneInside { now := 0 } lateAnswer := by
  decide +kernel

end PyCommon.RedisLock
