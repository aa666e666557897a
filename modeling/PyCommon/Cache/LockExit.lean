import PyCommon.Lib.Runs

/-!
# The exit path of the distributed lock

What `redis_lock` does when its guarded block is left. The auto-extend task is cancelled and
awaited, and whatever that raises is suppressed; then the lock is released, and a `RedisError` of
the release is logged. While the caller's task awaits the one or the other it may be cancelled
itself.

Every exit calls the release exactly once, and if nobody cancels the caller it observes what the
block ended with. A cancellation that finds the caller in its release leaves it as the
`CancelledError` it is. One that finds it awaiting the extend task is suppressed with the outcome
of that task, so the caller learns of a cancellation exactly when one found it in its release or
the block itself had been cancelled (`exit_keeps_iff`).
-/

set_option autoImplicit false

namespace PyCommon.LockExit

open StepSystem

/-! ## Exceptions and the two tasks -/

/-- An `Exception`. A `LockError` is a `RedisError`. -/
inductive Exc where
  | lockError
  | redisError (number : ℕ)
  | other (number : ℕ)
  deriving DecidableEq

def Exc.isRedisError : Exc → Bool
  | .lockError => true
  | .redisError _ => true
  | .other _ => false

/-- What a coroutine raises. `CancelledError` and, as `baseException`, what else is no
`Exception`. -/
inductive Raised where
  | cancelledError
  | exception (e : Exc)
  | baseException (number : ℕ)
  deriving DecidableEq

/-- How a block or a coroutine ends. -/
abbrev Outcome := Except Raised Unit

/-- The auto-extend task: created but not begun, asleep, waiting for its `extend`, or done. -/
inductive ExtendTask where
  | starting
  | sleeping
  | extending
  | ended (result : Outcome)
  deriving DecidableEq

/-- What `_auto_extend_loop` ends with when its `extend` raises. -/
def extendFailed : Raised → Outcome
  | .exception .lockError => .ok ()
  | .exception _ => .ok ()
  | e => .error e

/-- `contextlib.suppress(asyncio.CancelledError, Exception)`. -/
def suppressed : Outcome → Outcome
  | .error .cancelledError => .ok ()
  | .error (.exception _) => .ok ()
  | outcome => outcome

/-- `except RedisError` around the release, in the `finally` of a block that ended with
`block`. -/
def afterRelease (block : Outcome) : Outcome → Outcome
  | .ok _ => block
  | .error (.exception e) => if e.isRedisError then block else .error (.exception e)
  | .error e => .error e

/-! ## The exit path -/

/-- Where the caller's task stands on the exit path. `mustCancel` says that it was cancelled
when the task it awaits was done already, and `cancelled` that its release was cancelled. -/
inductive Caller where
  | reaping (task : ExtendTask) (mustCancel : Bool)
  | releasing (cancelled : Bool)
  | left (observed : Outcome)
  deriving DecidableEq

structure State where
  block : Outcome
  releases : ℕ
  caller : Caller
  deriving DecidableEq

/-- `cancel` is a cancellation of the caller's task, and the others are the progress of what it
awaits. -/
inductive Event where
  | cancel
  | taskCancelled
  | extendRaises (e : Raised)
  | resumed
  | released (reply : Outcome)
  | releaseCancelled
  deriving DecidableEq

/-- The call of `lock.release()`. -/
def callRelease (block : Outcome) (releases : ℕ) : State :=
  ⟨block, releases + 1, .releasing false⟩

/-- `await task` comes back. -/
def reaped (block : Outcome) (releases : ℕ) (result : Outcome) : State :=
  match suppressed result with
  | .ok _ => callRelease block releases
  | .error e => ⟨block, releases, .left (.error e)⟩

/-- The `finally` clause up to its first suspension, by `_stop_extend_task`. A task that is
done is not waited for. -/
def stopExtendTask (block : Outcome) : Option ExtendTask → State
  | none => callRelease block 0
  | some (.ended result) => reaped block 0 result
  | some task => ⟨block, 0, .reaping task false⟩

/-- The extend task has been told to cancel, so that its sleep or its `extend` raises. A
cancellation of the caller goes to the task it awaits, unless that is done; then the caller is
resumed with a `CancelledError`. -/
def step (s : State) : Event → Option State
  | .cancel =>
      match s.caller with
      | .reaping (.ended result) _ => some { s with caller := .reaping (.ended result) true }
      | .reaping _ _ => some s
      | .releasing _ => some { s with caller := .releasing true }
      | .left _ => none
  | .taskCancelled =>
      match s.caller with
      | .reaping .starting mustCancel
      | .reaping .sleeping mustCancel =>
          some { s with caller := .reaping (.ended (.error .cancelledError)) mustCancel }
      | _ => none
  | .extendRaises e =>
      match s.caller with
      | .reaping .extending mustCancel =>
          some { s with caller := .reaping (.ended (extendFailed e)) mustCancel }
      | _ => none
  | .resumed =>
      match s.caller with
      | .reaping (.ended result) mustCancel =>
          some (reaped s.block s.releases
            (if mustCancel then .error .cancelledError else result))
      | _ => none
  | .released reply =>
      match s.caller with
      | .releasing false => some { s with caller := .left (afterRelease s.block reply) }
      | _ => none
  | .releaseCancelled =>
      match s.caller with
      | .releasing true => some { s with caller := .left (.error .cancelledError) }
      | _ => none

/-- The caller awaits the extend task. -/
def State.Reaping (s : State) : Prop := ∃ task mustCancel, s.caller = .reaping task mustCancel

instance (s : State) : Decidable s.Reaping :=
  match found : s.caller with
  | .reaping task mustCancel => isTrue ⟨task, mustCancel, found⟩
  | .releasing _ => isFalse fun ⟨_, _, also⟩ => by cases found.symm.trans also
  | .left _ => isFalse fun ⟨_, _, also⟩ => by cases found.symm.trans also

/-! ## What is expected of Redis -/

/-- No `KeyboardInterrupt` or the like, which would end the event loop. -/
def Raised.IsOrdinary : Raised → Prop
  | .baseException _ => False
  | _ => True

instance : DecidablePred Raised.IsOrdinary
  | .cancelledError => isTrue trivial
  | .exception _ => isTrue trivial
  | .baseException _ => isFalse id

/-- The task ended with a `LockError` or another exception, if it ended. -/
def ExtendTask.IsOrdinary : ExtendTask → Prop
  | .ended (.error e) => e.IsOrdinary
  | _ => True

instance : DecidablePred ExtendTask.IsOrdinary
  | .starting => isTrue trivial
  | .sleeping => isTrue trivial
  | .extending => isTrue trivial
  | .ended (.ok _) => isTrue trivial
  | .ended (.error e) => inferInstanceAs (Decidable e.IsOrdinary)

/-- The release returns or raises a `RedisError`. -/
def Event.IsOrdinary : Event → Prop
  | .extendRaises e => e.IsOrdinary
  | .released (.error (.exception e)) => e.isRedisError = true
  | .released (.error _) => False
  | _ => True

instance : DecidablePred Event.IsOrdinary
  | .cancel => isTrue trivial
  | .taskCancelled => isTrue trivial
  | .extendRaises e => inferInstanceAs (Decidable e.IsOrdinary)
  | .resumed => isTrue trivial
  | .released (.ok _) => isTrue trivial
  | .released (.error .cancelledError) => isFalse id
  | .released (.error (.exception e)) => inferInstanceAs (Decidable (e.isRedisError = true))
  | .released (.error (.baseException _)) => isFalse id
  | .releaseCancelled => isTrue trivial

theorem suppressed_of_isOrdinary {result : Outcome}
    (ordinary : (ExtendTask.ended result).IsOrdinary) : suppressed result = .ok () := by
  match result, ordinary with
  | .ok (), _ => rfl
  | .error .cancelledError, _ => rfl
  | .error (.exception _), _ => rfl

theorem extendFailed_isOrdinary {e : Raised} (ordinary : e.IsOrdinary) :
    (ExtendTask.ended (extendFailed e)).IsOrdinary := by
  match e, ordinary with
  | .cancelledError, _ => trivial
  | .exception .lockError, _ => trivial
  | .exception (.redisError _), _ => trivial
  | .exception (.other _), _ => trivial

theorem reaped_of_isOrdinary {block result : Outcome} {releases : ℕ}
    (ordinary : (ExtendTask.ended result).IsOrdinary) :
    reaped block releases result = callRelease block releases := by
  rw [reaped, suppressed_of_isOrdinary ordinary]

theorem afterRelease_of_isOrdinary {block reply : Outcome}
    (ordinary : (Event.released reply).IsOrdinary) : afterRelease block reply = block := by
  match reply, ordinary with
  | .ok (), _ => rfl
  | .error (.exception e), redis => exact if_pos redis

/-! ## What a step does -/

/-- The states of the exit path of a block before the caller has left. -/
inductive OnTheWay (block : Outcome) : State → Prop where
  | reaping {task : ExtendTask} (mustCancel : Bool) (ordinary : task.IsOrdinary) :
      OnTheWay block ⟨block, 0, .reaping task mustCancel⟩
  | releasing (cancelled : Bool) : OnTheWay block ⟨block, 1, .releasing cancelled⟩

theorem onTheWay_stopExtendTask {block : Outcome} {task : Option ExtendTask}
    (ordinary : ∀ t ∈ task, t.IsOrdinary) : OnTheWay block (stopExtendTask block task) := by
  match task with
  | none => exact .releasing false
  | some .starting => exact .reaping false trivial
  | some .sleeping => exact .reaping false trivial
  | some .extending => exact .reaping false trivial
  | some (.ended result) =>
      rw [stopExtendTask, reaped_of_isOrdinary (ordinary _ rfl)]
      exact .releasing false

/-- What an ordinary event does on the way: the caller is cancelled, the extend task goes on, the
caller is resumed and calls the release, or it leaves. -/
theorem OnTheWay.cases_of_step {block : Outcome} {s next : State} {event : Event}
    (way : OnTheWay block s) (ordinary : event.IsOrdinary) (taken : step s event = some next) :
    (event = .cancel ∧ s.Reaping ∧ next.Reaping ∧ OnTheWay block next) ∨
    (event = .cancel ∧ ¬ s.Reaping ∧ next = ⟨block, 1, .releasing true⟩) ∨
    (event ≠ .cancel ∧ s.Reaping ∧ OnTheWay block next ∧ next.caller ≠ .releasing true) ∨
    (event ≠ .cancel ∧ s.caller = .releasing false ∧ next = ⟨block, 1, .left block⟩) ∨
    (event ≠ .cancel ∧ s.caller = .releasing true ∧
      next = ⟨block, 1, .left (.error .cancelledError)⟩) := by
  cases way with
  | reaping mustCancel plain =>
      rename_i task
      have waiting : (State.mk block 0 (.reaping task mustCancel)).Reaping := ⟨_, _, rfl⟩
      cases event with
      | cancel =>
          left
          cases task with
          | ended result =>
              obtain rfl := Option.some.inj taken
              exact ⟨rfl, waiting, ⟨_, _, rfl⟩, .reaping true plain⟩
          | _ =>
              obtain rfl := Option.some.inj taken
              exact ⟨rfl, waiting, waiting, .reaping mustCancel plain⟩
      | taskCancelled =>
          right; right; left
          cases task with
          | starting | sleeping =>
              obtain rfl := Option.some.inj taken
              exact ⟨nofun, waiting, .reaping mustCancel trivial, nofun⟩
          | extending | ended result => cases taken
      | extendRaises e =>
          right; right; left
          cases task with
          | extending =>
              obtain rfl := Option.some.inj taken
              exact ⟨nofun, waiting, .reaping mustCancel (extendFailed_isOrdinary ordinary), nofun⟩
          | starting | sleeping | ended result => cases taken
      | resumed =>
          right; right; left
          cases task with
          | ended result =>
              obtain rfl := Option.some.inj taken
              have thrown : (ExtendTask.ended
                  (if mustCancel then .error .cancelledError else result)).IsOrdinary := by
                cases mustCancel with
                | true => trivial
                | false => exact plain
              rw [reaped_of_isOrdinary thrown]
              exact ⟨nofun, waiting, .releasing false, nofun⟩
          | starting | sleeping | extending => cases taken
      | released reply => cases taken
      | releaseCancelled => cases taken
  | releasing cancelled =>
      have past : ¬ (State.mk block 1 (.releasing cancelled)).Reaping := by
        rintro ⟨_, _, at_⟩
        cases at_
      cases event with
      | cancel =>
          right; left
          obtain rfl := Option.some.inj taken
          exact ⟨rfl, past, rfl⟩
      | released reply =>
          right; right; right; left
          cases cancelled with
          | true => cases taken
          | false =>
              obtain rfl := Option.some.inj taken
              rw [afterRelease_of_isOrdinary ordinary]
              exact ⟨nofun, rfl, rfl⟩
      | releaseCancelled =>
          right; right; right; right
          cases cancelled with
          | true =>
              obtain rfl := Option.some.inj taken
              exact ⟨nofun, rfl, rfl⟩
          | false => cases taken
      | taskCancelled => cases taken
      | extendRaises e => cases taken
      | resumed => cases taken

/-! ## Runs of the exit path -/

/-- Every cancellation finds the caller awaiting the extend task. -/
def FoundReaping : State → List Event → Prop :=
  EveryStep step fun s event => event = .cancel → s.Reaping

instance (s : State) (events : List Event) : Decidable (FoundReaping s events) :=
  inferInstanceAs (Decidable (EveryStep step (fun s event => event = .cancel → s.Reaping) s events))

theorem step_left {block : Outcome} {releases : ℕ} {observed : Outcome} (event : Event) :
    step ⟨block, releases, .left observed⟩ event = none := by
  cases event with
  | cancel | taskCancelled | extendRaises e | resumed | released reply | releaseCancelled => rfl

/-- A caller that has left stays where it is. -/
theorem exec_left {block : Outcome} {releases : ℕ} {observed : Outcome} {events : List Event}
    {last : State} (run : exec step ⟨block, releases, .left observed⟩ events = some last) :
    events = [] ∧ last = ⟨block, releases, .left observed⟩ := by
  cases events with
  | nil => exact ⟨rfl, (Option.some.inj run).symm⟩
  | cons event events =>
      rw [exec_cons, step_left event] at run
      cases run

/-- From anywhere on the way: the release is called once, and the caller observes a
cancellation if one found it in its release, and what the block ended with if none did. -/
theorem OnTheWay.observed {block observed : Outcome} {s last : State} {events : List Event}
    (way : OnTheWay block s) (ordinary : ∀ event ∈ events, event.IsOrdinary)
    (run : exec step s events = some last) (leaves : last.caller = .left observed) :
    last.releases = 1 ∧
    (s.caller ≠ .releasing true → FoundReaping s events → observed = block) ∧
    (s.caller = .releasing true ∨ ¬ FoundReaping s events →
      observed = .error .cancelledError) := by
  induction events generalizing s with
  | nil =>
      obtain rfl := Option.some.inj run
      cases way with
      | reaping _ _ => cases leaves
      | releasing _ => cases leaves
  | cons event events ih =>
      obtain ⟨next, taken, rest⟩ := exec_cons_eq_some.mp run
      have later : ∀ e ∈ events, e.IsOrdinary := fun e member =>
        ordinary e (List.mem_cons_of_mem event member)
      have found : FoundReaping s (event :: events) ↔
          (event = .cancel → s.Reaping) ∧ FoundReaping next events := everyStep_cons taken
      rcases way.cases_of_step (ordinary event List.mem_cons_self) taken with
        ⟨rfl, here, there, on⟩ | ⟨rfl, past, rfl⟩ | ⟨other, here, on, unflagged⟩ |
        ⟨other, at_, rfl⟩ | ⟨other, at_, rfl⟩
      · obtain ⟨once, kept, told⟩ := ih on later rest
        obtain ⟨task, mustCancel, waiting⟩ := here
        obtain ⟨task', mustCancel', still⟩ := there
        refine ⟨once, fun _ every => kept ?_ (found.mp every).2, fun either => told (.inr ?_)⟩
        · rw [still]
          exact nofun
        · rcases either with flagged | some_
          · cases waiting.symm.trans flagged
          · exact fun every => some_ (found.mpr ⟨fun _ => ⟨task, mustCancel, waiting⟩, every⟩)
      · obtain ⟨once, _, told⟩ := ih (.releasing true) later rest
        refine ⟨once, fun _ every => absurd ((found.mp every).1 rfl) past, fun _ => told (.inl rfl)⟩
      · obtain ⟨once, kept, told⟩ := ih on later rest
        obtain ⟨task, mustCancel, waiting⟩ := here
        refine ⟨once, ?_, fun either => told (.inr ?_)⟩
        · exact fun _ every => kept unflagged (found.mp every).2
        rcases either with flagged | some_
        · cases waiting.symm.trans flagged
        · exact fun every => some_ (found.mpr ⟨fun cancel => absurd cancel other, every⟩)
      · obtain ⟨rfl, rfl⟩ := exec_left rest
        cases leaves
        refine ⟨rfl, fun _ _ => rfl, fun either => ?_⟩
        rcases either with flagged | some_
        · cases at_.symm.trans flagged
        · exact absurd (found.mpr ⟨fun cancel => absurd cancel other, trivial⟩) some_
      · obtain ⟨rfl, rfl⟩ := exec_left rest
        cases leaves
        exact ⟨rfl, fun unflagged _ => absurd at_ unflagged, fun _ => rfl⟩

theorem stopExtendTask_unflagged (block : Outcome) {task : Option ExtendTask}
    (ordinary : ∀ t ∈ task, t.IsOrdinary) :
    (stopExtendTask block task).caller ≠ .releasing true := by
  match task with
  | none => exact nofun
  | some .starting => exact nofun
  | some .sleeping => exact nofun
  | some .extending => exact nofun
  | some (.ended result) =>
      rw [stopExtendTask, reaped_of_isOrdinary (ordinary _ rfl)]
      exact nofun

/-! ## Every exit ends -/

/-- How much the caller still waits for. -/
def State.awaits (s : State) : ℕ :=
  match s.caller with
  | .reaping (.ended _) _ => 2
  | .reaping _ _ => 3
  | .releasing _ => 1
  | .left _ => 0

/-- A caller on the way is waiting for something that happens without a cancellation. -/
theorem OnTheWay.progress {block : Outcome} {s : State} (way : OnTheWay block s) :
    ∃ event next, event ≠ .cancel ∧ event.IsOrdinary ∧ step s event = some next := by
  cases way with
  | reaping mustCancel plain =>
      rename_i task
      cases task with
      | starting => exact ⟨.taskCancelled, _, nofun, trivial, rfl⟩
      | sleeping => exact ⟨.taskCancelled, _, nofun, trivial, rfl⟩
      | extending => exact ⟨.extendRaises .cancelledError, _, nofun, trivial, rfl⟩
      | ended result => exact ⟨.resumed, _, nofun, trivial, rfl⟩
  | releasing cancelled =>
      cases cancelled with
      | true => exact ⟨.releaseCancelled, _, nofun, trivial, rfl⟩
      | false => exact ⟨.released (.ok ()), _, nofun, trivial, rfl⟩

theorem awaits_reaped (block : Outcome) (releases : ℕ) (result : Outcome) :
    (reaped block releases result).awaits < 2 := by
  unfold reaped
  split
  · exact Nat.one_lt_two
  · exact Nat.two_pos

/-- What is awaited grows with no event, and shrinks with each that is no cancellation. -/
theorem awaits_step {s next : State} {event : Event} (taken : step s event = some next) :
    next.awaits + (if event = .cancel then 0 else 1) ≤ s.awaits := by
  obtain ⟨block, releases, caller⟩ := s
  cases event with
  | cancel =>
      match caller, taken with
      | .reaping .starting _, rfl => exact Nat.le_refl _
      | .reaping .sleeping _, rfl => exact Nat.le_refl _
      | .reaping .extending _, rfl => exact Nat.le_refl _
      | .reaping (.ended _) _, rfl => exact Nat.le_refl _
      | .releasing _, rfl => exact Nat.le_refl _
  | taskCancelled =>
      match caller, taken with
      | .reaping .starting _, rfl => exact Nat.le_refl _
      | .reaping .sleeping _, rfl => exact Nat.le_refl _
  | extendRaises e =>
      match caller, taken with
      | .reaping .extending _, rfl => exact Nat.le_refl _
  | resumed =>
      match caller, taken with
      | .reaping (.ended _) _, rfl => exact awaits_reaped _ _ _
  | released reply =>
      match caller, taken with
      | .releasing false, rfl => exact Nat.le_refl _
  | releaseCancelled =>
      match caller, taken with
      | .releasing true, rfl => exact Nat.le_refl _

/-- **Every exit ends**, after at most three events that are no cancellation. -/
theorem length_exit_le {s last : State} {events : List Event}
    (run : exec step s events = some last) :
    (events.filter fun event => event ≠ .cancel).length + last.awaits ≤ s.awaits := by
  induction events generalizing s with
  | nil =>
      obtain rfl := Option.some.inj run
      exact Nat.le_of_eq (Nat.zero_add _)
  | cons event events ih =>
      obtain ⟨next, taken, rest⟩ := exec_cons_eq_some.mp run
      have shorter := ih rest
      have shrinks := awaits_step taken
      by_cases cancel : event = .cancel
      · rw [List.filter_cons_of_neg (by simpa using cancel)]
        omega
      · rw [if_neg cancel] at shrinks
        rw [List.filter_cons_of_pos (by simpa using cancel), List.length_cons]
        omega

/-- An exit that has begun is on the way, until the caller has left. -/
theorem OnTheWay.step {block : Outcome} {s next : State} {event : Event}
    (way : OnTheWay block s ∨ ∃ observed, s.caller = .left observed) (ordinary : event.IsOrdinary)
    (taken : LockExit.step s event = some next) :
    OnTheWay block next ∨ ∃ observed, next.caller = .left observed := by
  rcases way with way | ⟨observed, leaves⟩
  · obtain ⟨-, -, -, on⟩ | ⟨-, -, rfl⟩ | ⟨-, -, on, -⟩ | ⟨-, -, rfl⟩ | ⟨-, -, rfl⟩ :=
      way.cases_of_step ordinary taken
    · exact .inl on
    · exact .inl (.releasing true)
    · exact .inl on
    · exact .inr ⟨_, rfl⟩
    · exact .inr ⟨_, rfl⟩
  · obtain ⟨block, releases, caller⟩ := s
    obtain rfl := leaves
    rw [step_left] at taken
    cases taken

theorem awaits_stopExtendTask (block : Outcome) (task : Option ExtendTask) :
    (stopExtendTask block task).awaits ≤ 3 := by
  match task with
  | none => exact Nat.le_of_ble_eq_true rfl
  | some .starting => exact Nat.le_refl _
  | some .sleeping => exact Nat.le_refl _
  | some .extending => exact Nat.le_refl _
  | some (.ended result) => exact Nat.le_trans (Nat.le_of_lt (awaits_reaped ..)) (by decide)

/-- **No exit hangs.** However often its caller is cancelled, at most three other things happen,
and until the caller has left there is one that can happen. -/
theorem exit_never_hangs {block : Outcome} {task : Option ExtendTask} {last : State}
    {events : List Event} (plain : ∀ t ∈ task, t.IsOrdinary)
    (ordinary : ∀ event ∈ events, event.IsOrdinary)
    (run : exec step (stopExtendTask block task) events = some last) :
    (events.filter fun event => event ≠ .cancel).length ≤ 3 ∧
      ((∃ observed, last.caller = .left observed) ∨
        ∃ event next, event ≠ .cancel ∧ event.IsOrdinary ∧ step last event = some next) := by
  have bound := length_exit_le run
  have short := awaits_stopExtendTask block task
  have after := exec_invariant (fun _ _ _ ordinary way taken => OnTheWay.step way ordinary taken)
    run (everyStep_of_forall_mem (fun event member _ => ordinary event member) _)
    (.inl (onTheWay_stopExtendTask plain))
  refine ⟨by omega, ?_⟩
  rcases after with way | leaves
  · exact .inr way.progress
  · exact .inl leaves

/-- A caller that is cancelled three times while its extend task ends. -/
theorem cancelled_exit_never_hangs :
    ([Event.cancel, .cancel, .taskCancelled, .cancel].filter fun event => event ≠ .cancel).length ≤
        3 ∧
      ((∃ observed, (⟨.ok (), 0, .reaping (.ended (.error .cancelledError)) true⟩ : State).caller =
          .left observed) ∨
        ∃ event next, event ≠ .cancel ∧ event.IsOrdinary ∧
          step ⟨.ok (), 0, .reaping (.ended (.error .cancelledError)) true⟩ event = some next) :=
  have plain : ∀ t ∈ some ExtendTask.sleeping, t.IsOrdinary := by decide
  exit_never_hangs plain (by decide) (rfl : exec step (stopExtendTask (.ok ()) _) _ = _)

/-! ## What the caller observes -/

/-- What `redis_lock` owes a caller whose block ended with `block`: one release, the outcome of
the block, and word of a cancellation. -/
structure Keeps (block : Outcome) (events : List Event) (last : State) (observed : Outcome) :
    Prop where
  once : last.releases = 1
  unchanged : Event.cancel ∉ events → observed = block
  heard : Event.cancel ∈ events → observed = .error .cancelledError

theorem foundReaping_of_not_mem {s : State} {events : List Event}
    (calm : Event.cancel ∉ events) : FoundReaping s events := by
  refine everyStep_of_forall_mem (fun event member _ cancel => ?_) s
  rw [cancel] at member
  exact absurd member calm

/-- **What the exit path keeps.** For every outcome of the block, every state of the extend task
and every run of the exit path, the release is called once and the block's own outcome is
observed, and a cancellation is heard of exactly when not every one of them found the caller
awaiting the extend task, or the block had been cancelled itself. -/
theorem exit_keeps_iff {block observed : Outcome} {task : Option ExtendTask} {last : State}
    {events : List Event} (plain : ∀ t ∈ task, t.IsOrdinary)
    (ordinary : ∀ event ∈ events, event.IsOrdinary)
    (run : exec step (stopExtendTask block task) events = some last)
    (leaves : last.caller = .left observed) :
    Keeps block events last observed ↔
      (Event.cancel ∈ events →
        block = .error .cancelledError ∨ ¬ FoundReaping (stopExtendTask block task) events) := by
  obtain ⟨once, kept, told⟩ := (onTheWay_stopExtendTask plain).observed ordinary run leaves
  have unflagged := stopExtendTask_unflagged block plain
  constructor
  · intro keeps cancelled
    by_cases every : FoundReaping (stopExtendTask block task) events
    · exact .inl ((kept unflagged every).symm.trans (keeps.heard cancelled))
    · exact .inr every
  · intro condition
    refine ⟨once, fun calm => kept unflagged (foundReaping_of_not_mem calm), fun cancelled => ?_⟩
    by_cases every : FoundReaping (stopExtendTask block task) events
    · rcases condition cancelled with same | some_
      · exact (kept unflagged every).trans same
      · exact absurd every some_
    · exact told (.inr every)

/-- A block that raised, an extend task in the middle of an `extend`, and a caller that is
cancelled while it awaits that task and again in its release. -/
theorem exit_keeps_cancelled_twice :
    Keeps (.error (.exception (.other 0)))
      [.cancel, .extendRaises (.exception .lockError), .resumed, .cancel, .releaseCancelled]
      ⟨.error (.exception (.other 0)), 1, .left (.error .cancelledError)⟩
      (.error .cancelledError) :=
  have plain : ∀ t ∈ some ExtendTask.extending, t.IsOrdinary := by decide
  (exit_keeps_iff plain (by decide) (by decide) rfl).mpr fun _ => .inr (by decide)

/-- **A cancellation is swallowed.** The block returns, the extend task sleeps, and the caller is
cancelled while it awaits that task: it goes on as if nothing had happened. -/
theorem cancellation_swallowed :
    exec step (stopExtendTask (.ok ()) (some .sleeping))
      [.cancel, .taskCancelled, .resumed, .released (.ok ())] = some ⟨.ok (), 1, .left (.ok ())⟩ ∧
    ¬ Keeps (.ok ()) [.cancel, .taskCancelled, .resumed, .released (.ok ())]
      ⟨.ok (), 1, .left (.ok ())⟩ (.ok ()) :=
  ⟨by decide, fun keeps => nomatch keeps.heard (by decide)⟩

end PyCommon.LockExit
