import Mathlib.Algebra.Order.Ring.Rat
import Mathlib.Tactic.Linarith
import PyCommon.Lib.Runs

/-!
# Draining before shutdown

`DrainingServer` does not hand the first signal to uvicorn. It marks the process as draining
and schedules a task that sleeps for the drain delay and then calls uvicorn's `handle_exit`
itself. Any further signal goes straight to uvicorn, and the task stays scheduled.

From the first signal on the server keeps serving until the delay has passed or a second
signal arrives, in every run (`drains_state`). But when the timer expires after a second
signal, the task calls `handle_exit` with the signal that began the drain, and if that was
SIGINT uvicorn takes it for an operator who insists. So the timer never escalates exactly in
the runs in which it does not expire on a shutdown that has begun, unless the drain was begun
by SIGTERM or the exit is forced already (`never_escalates_iff`).
-/

set_option autoImplicit false

namespace PyCommon.Draining

open StepSystem

inductive Signal where
  | sigint
  | sigterm
  deriving DecidableEq

/-! ## uvicorn -/

/-- `should_exit` and `force_exit`. -/
structure Flags where
  shouldExit : Bool := false
  forceExit : Bool := false
  deriving DecidableEq

/-- What is relied on of `uvicorn.Server.handle_exit`: the first call begins a graceful
shutdown, a SIGINT during one forces the exit, and a SIGTERM during one does nothing. -/
structure Uvicorn where
  handleExit : Signal → Flags → Flags
  begins : ∀ sig flags, flags.shouldExit = false →
    handleExit sig flags = { flags with shouldExit := true }
  interrupts : ∀ flags, flags.shouldExit = true →
    handleExit .sigint flags = { flags with forceExit := true }
  ignores : ∀ flags, flags.shouldExit = true → handleExit .sigterm flags = flags

/-! ## The server -/

/-- What became of the exit that the first signal asked for: the callback handed to the loop,
the task it creates, and its sleep. -/
inductive Pending where
  | nothing
  | scheduled (sig : Signal)
  | created (sig : Signal)
  | sleeping (sig : Signal) (due : ℚ)
  deriving DecidableEq

/-- The sleep that is going on: the signal that began the drain, and when it is over. -/
def Pending.timer : Pending → Option (Signal × ℚ)
  | .sleeping sig due => some (sig, due)
  | _ => none

/-- A `DrainingServer` and `lifecycle._draining`. Two history variables say when the drain
began, and how many signals have arrived. -/
structure Server where
  now : ℚ
  hasLoop : Bool := false
  draining : Bool := false
  processDraining : Bool := false
  flags : Flags := ⟨false, false⟩
  pending : Pending := .nothing
  drainedAt : Option ℚ := none
  signals : ℕ := 0
  deriving DecidableEq

inductive Event where
  | serve
  | signal (sig : Signal)
  | elapse (d : ℚ)
  | turn
  | expire
  deriving DecidableEq

variable (uvicorn : Uvicorn) (delay : ℚ)

/-- `handle_exit`. -/
def handleExit (sig : Signal) (s : Server) : Server :=
  if s.draining || !s.hasLoop then { s with flags := uvicorn.handleExit sig s.flags }
  else
    { s with draining := true, processDraining := true, drainedAt := some s.now,
             pending := .scheduled sig }

/-- One turn of the loop: `_schedule_exit` runs, or the task it has created begins. -/
def turn (s : Server) : Option Server :=
  match s.pending with
  | .scheduled sig => some { s with pending := .created sig }
  | .created sig => some { s with pending := .sleeping sig (s.now + delay) }
  | _ => none

/-- The sleep of `_drain_then_exit` ends. -/
def expire (s : Server) : Option Server :=
  match s.pending with
  | .sleeping sig due =>
      if due ≤ s.now then
        some { s with flags := uvicorn.handleExit sig s.flags, pending := .nothing }
      else none
  | _ => none

/-- The server may be gone before the timer expires, which is a run without that event. -/
def step (s : Server) : Event → Option Server
  | .serve => some { s with hasLoop := true }
  | .signal sig => some { handleExit uvicorn sig s with signals := s.signals + 1 }
  | .elapse d => if 0 ≤ d then some { s with now := s.now + d } else none
  | .turn => turn delay s
  | .expire => expire uvicorn s

/-! ## What draining promises -/

/-- Once a signal has begun the drain, the process is marked as draining, and no shutdown
begins until the delay has passed or another signal has arrived. -/
def Drains (s : Server) : Prop :=
  ∀ began ∈ s.drainedAt, s.processDraining = true ∧
    (s.flags.shouldExit = true → began + delay ≤ s.now ∨ 2 ≤ s.signals)

/-- The timer changes nothing of a shutdown that has begun, and only a signal forces the
exit. -/
structure NeverEscalates (s : Server) (event : Event) : Prop where
  expiry : event = .expire → s.flags.shouldExit = true →
    ∀ next, step uvicorn delay s event = some next → next.flags = s.flags
  force : ∀ next, step uvicorn delay s event = some next → next.flags.forceExit = true →
    s.flags.forceExit = true ∨ ∃ sig, event = .signal sig

/-- The timer does not expire on a shutdown that has begun, unless SIGTERM began the drain or
the exit is forced already. -/
def Harmless (s : Server) (event : Event) : Prop :=
  event = .expire → s.flags.shouldExit = true →
    ∀ timer ∈ s.pending.timer, timer.2 ≤ s.now → timer.1 = .sigterm ∨ s.flags.forceExit = true

instance (s : Server) (event : Event) : Decidable (Harmless s event) :=
  inferInstanceAs (Decidable (event = .expire → s.flags.shouldExit = true →
    ∀ timer ∈ s.pending.timer,
      timer.2 ≤ s.now → timer.1 = .sigterm ∨ s.flags.forceExit = true))

variable {uvicorn delay} {s next : Server} {event : Event}

/-! ## The timer -/

theorem expire_eq_some (taken : expire uvicorn s = some next) :
    ∃ sig due, s.pending = .sleeping sig due ∧ due ≤ s.now ∧
      next = { s with flags := uvicorn.handleExit sig s.flags, pending := .nothing } := by
  unfold expire at taken
  split at taken
  · rename_i sig due asleep
    split at taken
    · rename_i past
      exact ⟨sig, due, asleep, past, (Option.some.inj taken).symm⟩
    · cases taken
  · cases taken

theorem turn_eq_some (taken : turn delay s = some next) :
    ∃ sig, (s.pending = .scheduled sig ∧ next = { s with pending := .created sig }) ∨
      (s.pending = .created sig ∧ next = { s with pending := .sleeping sig (s.now + delay) }) := by
  unfold turn at taken
  split at taken
  · rename_i sig scheduled
    exact ⟨sig, .inl ⟨scheduled, (Option.some.inj taken).symm⟩⟩
  · rename_i sig created
    exact ⟨sig, .inr ⟨created, (Option.some.inj taken).symm⟩⟩
  · cases taken

/-- Nothing but a signal and the timer touches the flags. -/
theorem flags_of_quiet (quiet : ∀ sig, event ≠ .signal sig) (other : event ≠ .expire)
    (taken : step uvicorn delay s event = some next) : next.flags = s.flags := by
  cases event with
  | serve =>
      obtain rfl := Option.some.inj taken
      rfl
  | signal sig => exact absurd rfl (quiet sig)
  | elapse d =>
      simp only [step] at taken
      split at taken
      · obtain rfl := Option.some.inj taken
        rfl
      · cases taken
  | turn =>
      obtain ⟨sig, ⟨_, rfl⟩ | ⟨_, rfl⟩⟩ := turn_eq_some taken
      · rfl
      · rfl
  | expire => exact absurd rfl other

/-- A harmless timer changes nothing of a shutdown that has begun. -/
theorem Harmless.flags_eq (harmless : Harmless s .expire) (exiting : s.flags.shouldExit = true)
    (taken : expire uvicorn s = some next) : next.flags = s.flags := by
  obtain ⟨sig, due, asleep, past, rfl⟩ := expire_eq_some taken
  have timer : (sig, due) ∈ s.pending.timer := by
    rw [asleep]
    rfl
  cases sig with
  | sigterm => exact uvicorn.ignores _ exiting
  | sigint =>
      rcases harmless rfl exiting _ timer past with term | forced
      · cases term
      · refine (uvicorn.interrupts _ exiting).trans ?_
        rw [← forced]

/-- A harmless timer does not force the exit. -/
theorem Harmless.forceExit_eq (harmless : Harmless s .expire)
    (taken : expire uvicorn s = some next) : next.flags.forceExit = s.flags.forceExit := by
  cases exiting : s.flags.shouldExit with
  | true => rw [harmless.flags_eq exiting taken]
  | false =>
      obtain ⟨sig, due, _, _, rfl⟩ := expire_eq_some taken
      dsimp only
      rw [uvicorn.begins sig _ exiting]

/-- A timer that changes nothing of a shutdown that has begun is harmless. -/
theorem harmless_of_neverEscalates (never : NeverEscalates uvicorn delay s .expire) :
    Harmless s .expire := by
  intro _ exiting timer asleep past
  cases pending : s.pending with
  | sleeping sig due =>
      rw [pending] at asleep
      obtain rfl := Option.some.inj asleep
      have taken : step uvicorn delay s .expire =
          some { s with flags := uvicorn.handleExit sig s.flags, pending := .nothing } := by
        rw [step, expire, pending]
        exact if_pos past
      have same : uvicorn.handleExit sig s.flags = s.flags := never.expiry rfl exiting _ taken
      cases sig with
      | sigterm => exact .inl rfl
      | sigint =>
          rw [uvicorn.interrupts _ exiting] at same
          exact .inr (congrArg Flags.forceExit same).symm
  | _ =>
      rw [pending] at asleep
      cases asleep

/-- **For one event: the timer never escalates exactly when it is harmless.** -/
theorem neverEscalates_iff_harmless :
    NeverEscalates uvicorn delay s event ↔ Harmless s event := by
  by_cases isExpire : event = .expire
  · subst isExpire
    refine ⟨harmless_of_neverEscalates, fun harmless => ?_⟩
    constructor
    · exact fun _ exiting next taken => harmless.flags_eq exiting taken
    · intro next taken forced
      rw [harmless.forceExit_eq taken] at forced
      exact .inl forced
  · refine ⟨fun _ expires => absurd expires isExpire, fun _ => ?_⟩
    refine ⟨fun expires => absurd expires isExpire, fun next taken forced => ?_⟩
    by_cases isSignal : ∃ sig, event = .signal sig
    · exact .inr isSignal
    · rw [flags_of_quiet (not_exists.mp isSignal) isExpire taken] at forced
      exact .inl forced

/-! ## The drain -/

/-- A drain that began at `began`. -/
structure Begun (delay : ℚ) (s : Server) (began : ℚ) : Prop where
  marked : s.processDraining = true
  signalled : 1 ≤ s.signals
  past : began ≤ s.now
  timed : ∀ timer ∈ s.pending.timer, began + delay ≤ timer.2
  exits : s.flags.shouldExit = true → began + delay ≤ s.now ∨ 2 ≤ s.signals

/-- Either the drain has begun, or nothing is pending and a shutdown takes a signal. -/
structure Consistent (delay : ℚ) (s : Server) : Prop where
  flag : s.draining = s.drainedAt.isSome
  begun : ∀ began ∈ s.drainedAt, Begun delay s began
  idle : s.drainedAt = none →
    s.pending = .nothing ∧ (s.flags.shouldExit = true → 1 ≤ s.signals)

theorem consistent_start (start : ℚ) : Consistent delay { now := start } where
  flag := rfl
  begun began none_ := by cases none_
  idle _ := ⟨rfl, fun exiting => by cases exiting⟩

/-- A pending exit belongs to a drain, and what becomes of it keeps the drain consistent. -/
theorem Consistent.of_pending (consistent : Consistent delay s) (pending : s.pending ≠ .nothing)
    (flag : next.draining = s.draining) (since : next.drainedAt = s.drainedAt)
    (begun : ∀ began, Begun delay s began → Begun delay next began) : Consistent delay next := by
  refine ⟨?_, fun began at_ => ?_, fun none_ => ?_⟩
  · rw [flag, since]
    exact consistent.flag
  · rw [since] at at_
    exact begun began (consistent.begun began at_)
  · rw [since] at none_
    exact absurd (consistent.idle none_).1 pending

theorem Consistent.signal (consistent : Consistent delay s) (sig : Signal) :
    Consistent delay { handleExit uvicorn sig s with signals := s.signals + 1 } := by
  unfold handleExit
  split
  · refine ⟨consistent.flag, fun began since => ?_, fun none_ => ?_⟩
    · obtain ⟨marked, signalled, past, timed, _⟩ := consistent.begun began since
      exact ⟨marked, Nat.le_add_left 1 _, past, timed, fun _ => .inr (Nat.succ_le_succ signalled)⟩
    · exact ⟨(consistent.idle none_).1, fun _ => Nat.le_add_left 1 _⟩
  · rename_i fresh
    have none_ : s.drainedAt = none := by
      have notYet : s.draining = false := by
        cases draining : s.draining with
        | false => rfl
        | true => exact absurd (by rw [draining]; rfl) fresh
      rwa [consistent.flag, Option.isSome_eq_false_iff, Option.isNone_iff_eq_none] at notYet
    refine ⟨rfl, fun began since => ?_, fun since => by cases since⟩
    obtain rfl := Option.some.inj since
    refine ⟨rfl, Nat.le_add_left 1 _, le_rfl, fun timer asleep => (by cases asleep), ?_⟩
    exact fun exiting => .inr (Nat.succ_le_succ ((consistent.idle none_).2 exiting))

/-- **Every event keeps the drain consistent.** -/
theorem Consistent.step (consistent : Consistent delay s)
    (taken : step uvicorn delay s event = some next) : Consistent delay next := by
  cases event with
  | serve =>
      obtain rfl := Option.some.inj taken
      refine ⟨consistent.flag, fun began since => ?_, consistent.idle⟩
      obtain ⟨marked, signalled, past, timed, exits⟩ := consistent.begun began since
      exact ⟨marked, signalled, past, timed, exits⟩
  | signal sig =>
      obtain rfl := Option.some.inj taken
      exact consistent.signal sig
  | elapse d =>
      simp only [Draining.step] at taken
      split at taken
      · rename_i forward
        obtain rfl := Option.some.inj taken
        have ordered : s.now ≤ s.now + d := by linarith
        refine ⟨consistent.flag, fun began since => ?_, consistent.idle⟩
        obtain ⟨marked, signalled, past, timed, exits⟩ := consistent.begun began since
        refine ⟨marked, signalled, past.trans ordered, timed, fun exiting => ?_⟩
        exact (exits exiting).imp_left fun late => late.trans ordered
      · cases taken
  | turn =>
      obtain ⟨sig, ⟨pending, rfl⟩ | ⟨pending, rfl⟩⟩ := turn_eq_some taken
      · refine consistent.of_pending (by simp [pending]) rfl rfl fun began begun => ?_
        exact ⟨begun.marked, begun.signalled, begun.past, fun timer asleep => (by cases asleep),
          begun.exits⟩
      · refine consistent.of_pending (by simp [pending]) rfl rfl fun began begun => ?_
        refine ⟨begun.marked, begun.signalled, begun.past, fun timer asleep => ?_, begun.exits⟩
        obtain rfl := Option.some.inj asleep
        exact add_le_add_left begun.past delay
  | expire =>
      obtain ⟨sig, due, asleep, elapsed, rfl⟩ := expire_eq_some taken
      refine consistent.of_pending (by simp [asleep]) rfl rfl fun began begun => ?_
      have late : began + delay ≤ due := begun.timed (sig, due) (by rw [asleep]; rfl)
      exact ⟨begun.marked, begun.signalled, begun.past, fun timer asleep => (by cases asleep),
        fun _ => .inl (late.trans elapsed)⟩

/-- Every state of every run drains as promised. -/
theorem drains_state (uvicorn : Uvicorn) (delay start : ℚ) (events : List Event) :
    EveryState (step uvicorn delay) (Drains delay) { now := start } events := by
  have preserved : ∀ s event next, True → Consistent delay s →
      step uvicorn delay s event = some next → Consistent delay next :=
    fun s event next _ consistent taken => consistent.step taken
  have all : EveryStep (step uvicorn delay) (fun _ _ => True) { now := start } events :=
    everyStep_of_forall_mem (fun _ _ _ => trivial) _
  have every := everyState_of_preserved preserved all (consistent_start start)
  exact every.mono fun s consistent began since =>
    ⟨(consistent.begun began since).marked, (consistent.begun began since).exits⟩

/-- **When draining never escalates by itself.** In every run the process is marked as
draining from the first signal with a running loop on, and no shutdown begins until the delay
has passed or a second signal has arrived. And the timer changes nothing of a shutdown that has
begun, nor forces the exit, exactly in the runs in which, whenever it expires on such a
shutdown, SIGTERM began the drain or the exit is forced already. -/
theorem never_escalates_iff (uvicorn : Uvicorn) (delay start : ℚ) (events : List Event) :
    (EveryState (step uvicorn delay) (Drains delay) { now := start } events ∧
        EveryStep (step uvicorn delay) (NeverEscalates uvicorn delay) { now := start } events) ↔
      EveryStep (step uvicorn delay) Harmless { now := start } events := by
  constructor
  · rintro ⟨_, never⟩
    exact never.mono fun s event => neverEscalates_iff_harmless.mp
  · intro harmless
    exact ⟨drains_state uvicorn delay start events,
      harmless.mono fun s event => neverEscalates_iff_harmless.mpr⟩

/-- A server that acts as uvicorn does. -/
def asUvicorn : Uvicorn where
  handleExit sig flags :=
    if flags.shouldExit && sig = .sigint then { flags with forceExit := true }
    else { flags with shouldExit := true }
  begins sig flags fresh := by simp [fresh]
  interrupts flags exiting := by simp [exiting]
  ignores flags exiting := by
    obtain ⟨shouldExit, forceExit⟩ := flags
    obtain rfl : shouldExit = true := exiting
    rfl

/-- **The timer forces the exit.** Ctrl-C begins the drain and SIGTERM a graceful shutdown;
five seconds later the timer takes the Ctrl-C for a second one. -/
theorem timer_forces_exit :
    ¬ EveryStep (step asUvicorn 5) (NeverEscalates asUvicorn 5) { now := 0 }
      [.serve, .signal .sigint, .turn, .turn, .signal .sigterm, .elapse 5, .expire] := by
  intro never
  have harmless := never.mono fun s event => neverEscalates_iff_harmless.mp
  exact absurd harmless (by decide +kernel)

end PyCommon.Draining
