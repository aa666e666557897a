import Mathlib.Data.Rat.Defs
import Mathlib.Algebra.Order.Ring.Rat
import PyCommon.Asgi

/-!
# The circuit breaker

`AsyncCircuitBreaker` with its three states, as functions of the breaker and of
the reading of the monotonic clock. Each operation reads the clock at most once,
so one reading is passed to it. Durations and readings are exact rationals.

The three ways the library drives a breaker differ only in what they report when
a call ends (`Driver.report`): `call` and the HTTP transport catch `Exception`,
so a call that is cancelled reports nothing, while the context manager reports
every end.

Of a single operation the runs only need what it does to the count of probes. A
transition that enters the half-open state starts the count at zero, and one that
stays in it leaves the count alone (`KeepsProbeCount`).
-/

set_option autoImplicit false

namespace PyCommon.CircuitBreaker

/-- `CLOSED`, `OPEN` and `HALF_OPEN`. -/
inductive CircuitState where
  | closed
  | opened
  | halfOpen
  deriving DecidableEq

/-- The fields a caller sets. -/
structure Settings where
  failureThreshold : ℕ := 5
  recoveryTimeout : ℚ := 30
  halfOpenMaxCalls : ℕ := 1
  name : String := "default"

/-- The fields the breaker keeps for itself. -/
structure AsyncCircuitBreaker where
  state : CircuitState := .closed
  failureCount : ℕ := 0
  openedAt : ℚ := 0
  halfOpenCalls : ℕ := 0
  deriving DecidableEq

/-- The detail of the 503 error raised when a call is short-circuited. -/
structure CircuitOpenError where
  detail : String
  deriving DecidableEq

/-! ## Operations -/

/-- `_transition`. -/
def transition (now : ℚ) (newState : CircuitState) (b : AsyncCircuitBreaker) :
    AsyncCircuitBreaker :=
  if newState = b.state then b
  else
    match newState with
    | .opened => { b with state := .opened, openedAt := now, halfOpenCalls := 0 }
    | .halfOpen => { b with state := .halfOpen, halfOpenCalls := 0 }
    | .closed => { b with state := .closed, failureCount := 0, halfOpenCalls := 0 }

/-- Reading the `state` property, which may move an open circuit to half-open.
The value it returns is the state of the result. -/
def readState (cfg : Settings) (now : ℚ) (b : AsyncCircuitBreaker) : AsyncCircuitBreaker :=
  if b.state = .opened ∧ cfg.recoveryTimeout ≤ now - b.openedAt then transition now .halfOpen b
  else b

/-- The part of `before_call` after the state has been read. -/
def takeSlot (cfg : Settings) (b : AsyncCircuitBreaker) :
    Except CircuitOpenError Unit × AsyncCircuitBreaker :=
  match b.state with
  | .opened => (.error ⟨"Circuit '" ++ cfg.name ++ "' is open"⟩, b)
  | .halfOpen =>
      if cfg.halfOpenMaxCalls ≤ b.halfOpenCalls then
        (.error ⟨"Circuit '" ++ cfg.name ++ "' is half-open (probe in flight)"⟩, b)
      else (.ok (), { b with halfOpenCalls := b.halfOpenCalls + 1 })
  | .closed => (.ok (), b)

/-- `before_call`. -/
def beforeCall (cfg : Settings) (now : ℚ) (b : AsyncCircuitBreaker) :
    Except CircuitOpenError Unit × AsyncCircuitBreaker :=
  takeSlot cfg (readState cfg now b)

/-- `on_success`. -/
def onSuccess (now : ℚ) (b : AsyncCircuitBreaker) : AsyncCircuitBreaker :=
  if b.state = .halfOpen then transition now .closed b else { b with failureCount := 0 }

/-- `on_failure`. -/
def onFailure (cfg : Settings) (now : ℚ) (b : AsyncCircuitBreaker) : AsyncCircuitBreaker :=
  if b.state = .halfOpen then transition now .opened b
  else if cfg.failureThreshold ≤ b.failureCount + 1 then
    transition now .opened { b with failureCount := b.failureCount + 1 }
  else { b with failureCount := b.failureCount + 1 }

/-- `reset`. -/
def reset (now : ℚ) (b : AsyncCircuitBreaker) : AsyncCircuitBreaker := transition now .closed b

/-! ## Drivers -/

/-- `AsyncCircuitBreaker.call`, `async with breaker`, and
`CircuitBreakerTransport.handle_async_request`. -/
inductive Driver where
  | call
  | contextManager
  | transport
  deriving DecidableEq

inductive Report where
  | success
  | failure
  deriving DecidableEq

/-- What an admitted call reports when it ends. It ends with a result, of which
only the transport looks at the status code, or with an exception. -/
def Driver.report : Driver → Except PyExc ℤ → Option Report
  | .call, .ok _ => some .success
  | .call, .error e => if e.isException then some .failure else none
  | .contextManager, .ok _ => some .success
  | .contextManager, .error _ => some .failure
  | .transport, .ok status => some (if 500 ≤ status then .failure else .success)
  | .transport, .error e => if e.isException then some .failure else none

/-- Deliver a report to the breaker. -/
def Report.apply (cfg : Settings) (now : ℚ) : Report → AsyncCircuitBreaker → AsyncCircuitBreaker
  | .success => onSuccess now
  | .failure => onFailure cfg now

/-! ## The count of probes -/

/-- The operation starts the count of probes at zero when it enters the half-open
state, and leaves it alone when it stays there. -/
def KeepsProbeCount (before after : AsyncCircuitBreaker) : Prop :=
  after.state = .halfOpen →
    after.halfOpenCalls = if before.state = .halfOpen then before.halfOpenCalls else 0

theorem KeepsProbeCount.refl (b : AsyncCircuitBreaker) : KeepsProbeCount b b := by
  intro half
  rw [if_pos half]

/-- Every transition keeps the count of probes. -/
theorem transition_keeps (now : ℚ) (newState : CircuitState) (b : AsyncCircuitBreaker) :
    KeepsProbeCount b (transition now newState b) := by
  unfold transition
  by_cases same : newState = b.state
  · rw [if_pos same]
    exact .refl b
  · rw [if_neg same]
    intro half
    cases newState with
    | closed => cases half
    | opened => cases half
    | halfOpen => rw [if_neg fun already => same already.symm]

theorem readState_keeps (cfg : Settings) (now : ℚ) (b : AsyncCircuitBreaker) :
    KeepsProbeCount b (readState cfg now b) := by
  unfold readState
  split
  · exact transition_keeps now .halfOpen b
  · exact .refl b

theorem reset_keeps (now : ℚ) (b : AsyncCircuitBreaker) : KeepsProbeCount b (reset now b) :=
  transition_keeps now .closed b

/-- A report leaves the half-open state when it finds the breaker there, and
never enters it. -/
theorem apply_state_ne_halfOpen (cfg : Settings) (now : ℚ) (r : Report)
    (b : AsyncCircuitBreaker) : (r.apply cfg now b).state ≠ .halfOpen := by
  cases r with
  | success =>
      simp only [Report.apply, onSuccess, transition]
      by_cases half : b.state = .halfOpen
      · simp [half]
      · simp [half]
  | failure =>
      simp only [Report.apply, onFailure, transition]
      by_cases half : b.state = .halfOpen
      · simp [half]
      · rw [if_neg half]
        split
        · split
          · exact half
          · simp
        · exact half

theorem apply_keeps (cfg : Settings) (now : ℚ) (r : Report) (b : AsyncCircuitBreaker) :
    KeepsProbeCount b (r.apply cfg now b) := by
  intro half
  exact absurd half (apply_state_ne_halfOpen cfg now r b)

/-! ## Admission -/

theorem readState_of_state_ne_opened {cfg : Settings} {now : ℚ} {b : AsyncCircuitBreaker}
    (other : b.state ≠ .opened) : readState cfg now b = b := by
  rw [readState, if_neg fun both => other both.1]

theorem readState_of_elapsed {cfg : Settings} {now : ℚ} {b : AsyncCircuitBreaker}
    (opened : b.state = .opened) (elapsed : cfg.recoveryTimeout ≤ now - b.openedAt) :
    readState cfg now b = { b with state := .halfOpen, halfOpenCalls := 0 } := by
  rw [readState, if_pos ⟨opened, elapsed⟩, transition, if_neg (by simp [opened])]

/-- A call is admitted by a closed circuit and by a half-open one with a probe
slot left. -/
theorem takeSlot_ok_iff {cfg : Settings} {b : AsyncCircuitBreaker} :
    (takeSlot cfg b).1 = .ok () ↔
      b.state ≠ .opened ∧ (b.state = .halfOpen → b.halfOpenCalls < cfg.halfOpenMaxCalls) := by
  unfold takeSlot
  cases state : b.state with
  | closed => simp
  | opened => simp
  | halfOpen =>
      by_cases full : cfg.halfOpenMaxCalls ≤ b.halfOpenCalls
      · simp [full]
      · simp [full, Nat.lt_of_not_le full]

theorem takeSlot_state (cfg : Settings) (b : AsyncCircuitBreaker) :
    (takeSlot cfg b).2.state = b.state := by
  unfold takeSlot
  cases state : b.state with
  | closed => exact state
  | opened => exact state
  | halfOpen =>
      by_cases full : cfg.halfOpenMaxCalls ≤ b.halfOpenCalls
      · simp [full, state]
      · simp [full]

/-- An admitted probe takes one slot; nothing else does. -/
theorem takeSlot_halfOpenCalls {cfg : Settings} {b : AsyncCircuitBreaker}
    (half : b.state = .halfOpen) :
    (takeSlot cfg b).2.halfOpenCalls =
      b.halfOpenCalls + if (takeSlot cfg b).1 = .ok () then 1 else 0 := by
  unfold takeSlot
  rw [half]
  by_cases full : cfg.halfOpenMaxCalls ≤ b.halfOpenCalls
  · simp [full]
  · simp [full]

end PyCommon.CircuitBreaker
