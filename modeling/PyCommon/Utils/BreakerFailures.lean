import PyCommon.Utils.BreakerProbes

/-!
# When a closed circuit opens

A closed circuit opens on the failure that brings its count to the threshold. What the count
should be is a matter of history: the failures recorded since the last success, the last
return to the closed state, and the last reset, whichever is latest (`Counted.failures`).

The breaker keeps its own count, which outcomes also move while the circuit is open, and
which a transition to the closed state clears. A circuit that is closed already makes no
transition, so a reset in that state leaves the count as it is. The two counts agree in the
closed state along every run in which such a reset finds nothing to clear
(`Counted.Agrees.step`), and the circuit opens exactly at the threshold there
(`opens_at_threshold`). Otherwise failures from before the reset still count
(`reset_keeps_failures`).
-/

set_option autoImplicit false

namespace PyCommon.CircuitBreaker

open StepSystem

/-- A shared breaker with the number of failures recorded since the last success, transition
to the closed state or reset. -/
structure Counted where
  system : System
  failures : ℕ := 0

/-- The failures to count after an event. -/
def failuresAfter (before after : System) (event : Event) (failures : ℕ) : ℕ :=
  if after.breaker.state = .closed ∧ before.breaker.state ≠ .closed then 0
  else
    match event with
    | .reset => 0
    | event =>
        match event.outcome before with
        | some (_, .success) => 0
        | some (_, .failure) => failures + 1
        | none => failures

def countedStep (cfg : Settings) (c : Counted) (event : Event) : Option Counted :=
  (step cfg c.system event).map fun next =>
    ⟨next, failuresAfter c.system next event c.failures⟩

/-- A closed circuit opens with the event that brings the failures to the threshold. -/
def OpensAtThreshold (cfg : Settings) (c : Counted) (event : Event) : Prop :=
  c.system.breaker.state = .closed → ∀ next ∈ countedStep cfg c event,
    (next.system.breaker.state = .opened ↔ cfg.failureThreshold ≤ next.failures)

/-- A reset of a closed circuit finds no failures to clear. -/
def ClearsNothing (c : Counted) : Event → Prop
  | .reset => c.system.breaker.state = .closed → c.failures = 0
  | _ => True

instance (cfg : Settings) (c : Counted) (event : Event) :
    Decidable (OpensAtThreshold cfg c event) :=
  inferInstanceAs (Decidable (c.system.breaker.state = .closed → ∀ next ∈ countedStep cfg c event,
    (next.system.breaker.state = .opened ↔ cfg.failureThreshold ≤ next.failures)))

instance (c : Counted) : (event : Event) → Decidable (ClearsNothing c event)
  | .reset => inferInstanceAs (Decidable (c.system.breaker.state = .closed → c.failures = 0))
  | .elapse _ | .readState | .enter _ | .finish _ _ | .report _ => isTrue trivial

/-! ## What an event does to the breaker -/

/-- An event without an outcome, other than a reset, at most reads the state and takes a
slot. -/
theorem step_breaker_of_silent {cfg : Settings} {s next : System} {event : Event}
    (silent : event.outcome s = none) (other : event ≠ .reset)
    (taken : step cfg s event = some next) :
    next.breaker = s.breaker ∨ next.breaker = readState cfg s.now s.breaker ∨
      next.breaker = (beforeCall cfg s.now s.breaker).2 := by
  cases serves_of_step taken with
  | elapse d forward now breaker => exact .inl breaker
  | readState now breaker => exact .inr (.inl breaker)
  | enter driver now breaker => exact .inr (.inr breaker)
  | silent index ending unreported now breaker => exact .inl breaker
  | outcome tag r reported => cases reported.symm.trans silent
  | reset => exact absurd rfl other

theorem takeSlot_of_closed {cfg : Settings} {b : AsyncCircuitBreaker} (closed : b.state = .closed) :
    (takeSlot cfg b).2 = b := by
  simp only [takeSlot, closed]

/-- Nothing but an outcome changes a closed circuit. -/
theorem step_breaker_of_closed {cfg : Settings} {s next : System} {event : Event}
    (closed : s.breaker.state = .closed) (silent : event.outcome s = none)
    (taken : step cfg s event = some next) : next.breaker = s.breaker := by
  have read : readState cfg s.now s.breaker = s.breaker :=
    readState_of_state_ne_opened (by simp [closed])
  by_cases isReset : event = .reset
  · subst isReset
    obtain rfl := Option.some.inj taken
    rw [System.settle_breaker, reset, transition, if_pos closed.symm]
  · rcases step_breaker_of_silent silent isReset taken with same | same | same
    · exact same
    · exact same.trans read
    · rw [same, beforeCall, read, takeSlot_of_closed closed]

/-- A report closes only a half-open circuit. -/
theorem Report.apply_of_closes {cfg : Settings} {now : ℚ} {r : Report} {b : AsyncCircuitBreaker}
    (other : b.state ≠ .closed) (closes : (r.apply cfg now b).state = .closed) :
    (r.apply cfg now b).failureCount = 0 := by
  cases r with
  | success =>
      simp only [Report.apply, onSuccess] at closes ⊢
      split
      · rw [transition, if_neg other.symm]
      · rfl
  | failure =>
      exfalso
      cases state : b.state with
      | closed => exact other state
      | opened =>
          rw [(Report.apply_of_opened cfg now .failure state).1] at closes
          cases closes
      | halfOpen =>
          rw [Report.apply_state_of_halfOpen cfg now .failure state] at closes
          cases closes

/-- Returning to the closed state clears the count. -/
theorem failureCount_of_closes {cfg : Settings} {s next : System} {event : Event}
    (other : s.breaker.state ≠ .closed) (closes : next.breaker.state = .closed)
    (taken : step cfg s event = some next) : next.breaker.failureCount = 0 := by
  have read : (readState cfg s.now s.breaker).state ≠ .closed := by
    rw [readState]
    split
    · rename_i opened
      simp [transition, opened.1]
    · exact other
  cases reported : event.outcome s with
  | some outcome =>
      have applied := step_breaker_of_outcome reported taken
      rw [applied] at closes ⊢
      exact Report.apply_of_closes other closes
  | none =>
      by_cases isReset : event = .reset
      · subst isReset
        obtain rfl := Option.some.inj taken
        rw [System.settle_breaker, reset, transition, if_neg other.symm]
      · exfalso
        rcases step_breaker_of_silent reported isReset taken with same | same | same
        · exact other (same ▸ closes)
        · exact read (same ▸ closes)
        · rw [same, beforeCall, takeSlot_state] at closes
          exact read closes

/-! ## What an event does to the two counts -/

section Step

variable {cfg : Settings} {c next : Counted} {event : Event}

/-- What can happen to a closed circuit. -/
theorem countedStep_of_closed (closed : c.system.breaker.state = .closed)
    (taken : countedStep cfg c event = some next) :
    (event ≠ .reset ∧ next.system.breaker = c.system.breaker ∧ next.failures = c.failures) ∨
    (event = .reset ∧ next.system.breaker = c.system.breaker ∧ next.failures = 0) ∨
    (next.system.breaker = onSuccess c.system.now c.system.breaker ∧ next.failures = 0) ∨
    (next.system.breaker = onFailure cfg c.system.now c.system.breaker ∧
      next.failures = c.failures + 1) := by
  obtain ⟨after, accepted, rfl⟩ := Option.map_eq_some_iff.mp taken
  have stays : ¬ (after.breaker.state = .closed ∧ c.system.breaker.state ≠ .closed) :=
    fun both => both.2 closed
  cases reported : event.outcome c.system with
  | none =>
      have same := step_breaker_of_closed closed reported accepted
      by_cases isReset : event = .reset
      · subst isReset
        exact .inr (.inl ⟨rfl, same, if_neg stays⟩)
      · refine .inl ⟨isReset, same, ?_⟩
        simp only [failuresAfter, if_neg stays, reported]
  | some outcome =>
      obtain ⟨tag, r⟩ := outcome
      have applied := step_breaker_of_outcome reported accepted
      have isOther : event ≠ .reset := by
        rintro rfl
        cases reported
      cases r with
      | success =>
          refine .inr (.inr (.inl ⟨applied, ?_⟩))
          simp only [failuresAfter, if_neg stays, reported]
      | failure =>
          refine .inr (.inr (.inr ⟨applied, ?_⟩))
          simp only [failuresAfter, if_neg stays, reported]

/-- In the closed state the breaker's count is that of the history, and below the
threshold. -/
def Counted.Agrees (cfg : Settings) (c : Counted) : Prop :=
  c.system.breaker.state = .closed →
    c.system.breaker.failureCount = c.failures ∧ c.failures < cfg.failureThreshold

theorem onFailure_state_of_closed (cfg : Settings) (now : ℚ) {b : AsyncCircuitBreaker}
    (closed : b.state = .closed) :
    ((onFailure cfg now b).state = .opened ↔ cfg.failureThreshold ≤ b.failureCount + 1) ∧
      (onFailure cfg now b).failureCount = b.failureCount + 1 := by
  by_cases reached : cfg.failureThreshold ≤ b.failureCount + 1
  · simp [onFailure, closed, reached, transition]
  · simp [onFailure, closed, reached]

theorem onSuccess_of_closed {now : ℚ} {b : AsyncCircuitBreaker} (closed : b.state = .closed) :
    onSuccess now b = { b with failureCount := 0 } := by
  rw [onSuccess, closed, if_neg (by decide)]

/-- **Every event keeps the two counts in agreement**, as long as a reset of a closed circuit
has nothing to clear. -/
theorem Counted.Agrees.step (threshold : 1 ≤ cfg.failureThreshold) (agrees : c.Agrees cfg)
    (clean : ClearsNothing c event) (taken : countedStep cfg c event = some next) :
    next.Agrees cfg := by
  intro closes
  by_cases closed : c.system.breaker.state = .closed
  · obtain ⟨count, below⟩ := agrees closed
    rcases countedStep_of_closed closed taken with
      ⟨_, same, kept⟩ | ⟨rfl, same, cleared⟩ | ⟨applied, cleared⟩ | ⟨applied, added⟩
    · rw [same, kept]
      exact ⟨count, below⟩
    · rw [same, cleared, count, clean closed]
      exact ⟨rfl, threshold⟩
    · rw [applied, cleared, onSuccess_of_closed closed]
      exact ⟨rfl, threshold⟩
    · obtain ⟨opens, counted⟩ := onFailure_state_of_closed cfg c.system.now closed
      rw [applied, added, counted, count]
      refine ⟨rfl, ?_⟩
      by_contra reached
      rw [applied, opens.mpr (by omega)] at closes
      cases closes
  · obtain ⟨after, accepted, rfl⟩ := Option.map_eq_some_iff.mp taken
    have zero : failuresAfter c.system after event c.failures = 0 := if_pos ⟨closes, closed⟩
    rw [zero]
    exact ⟨failureCount_of_closes closed closes accepted, threshold⟩

/-- Where the two counts agree the circuit opens at the threshold. -/
theorem Counted.Agrees.opensAtThreshold (threshold : 1 ≤ cfg.failureThreshold)
    (agrees : c.Agrees cfg) : OpensAtThreshold cfg c event := by
  intro closed next taken
  obtain ⟨count, below⟩ := agrees closed
  have shut : ∀ b : AsyncCircuitBreaker, b.state = .closed → b.state ≠ .opened := fun b same => by
    rw [same]
    decide
  rcases countedStep_of_closed closed taken with
    ⟨_, same, kept⟩ | ⟨_, same, cleared⟩ | ⟨applied, cleared⟩ | ⟨applied, added⟩
  · rw [same, kept]
    exact ⟨fun opens => absurd opens (shut _ closed), fun reached => by omega⟩
  · rw [same, cleared]
    exact ⟨fun opens => absurd opens (shut _ closed), fun reached => by omega⟩
  · rw [applied, cleared, onSuccess_of_closed closed]
    exact ⟨fun opens => absurd opens (shut _ closed), fun reached => by omega⟩
  · rw [applied, added, (onFailure_state_of_closed cfg _ closed).1, count]

end Step

/-! ## Runs -/

theorem agrees_start {cfg : Settings} (threshold : 1 ≤ cfg.failureThreshold) (start : ℚ) :
    Counted.Agrees cfg ⟨⟨start, {}, [], 0, 0⟩, 0⟩ := fun _ => ⟨rfl, threshold⟩

/-- **A closed circuit opens exactly at the threshold** in every run in which a reset of a
closed circuit finds no failures to clear: each event takes it from closed to open if and only
if it brings the failures since the last success, return to closed or reset to the
threshold. -/
theorem opens_at_threshold (cfg : Settings) (threshold : 1 ≤ cfg.failureThreshold) (start : ℚ)
    (events : List Event)
    (clean : EveryStep (countedStep cfg) ClearsNothing ⟨⟨start, {}, [], 0, 0⟩, 0⟩ events) :
    EveryStep (countedStep cfg) (OpensAtThreshold cfg) ⟨⟨start, {}, [], 0, 0⟩, 0⟩ events := by
  have preserved : ∀ c event next, ClearsNothing c event → c.Agrees cfg →
      countedStep cfg c event = some next → next.Agrees cfg :=
    fun c event next clean agrees taken => agrees.step threshold clean taken
  have each : ∀ c event, ClearsNothing c event → c.Agrees cfg → OpensAtThreshold cfg c event :=
    fun c event _ agrees => agrees.opensAtThreshold threshold
  exact everyStep_of_invariant preserved each clean (agrees_start threshold start)

/-- A breaker that opens on the second failure. -/
def twoFailures : Settings := { failureThreshold := 2 }

/-- A failure, a success, a reset and then two failures. -/
theorem opens_after_clean_reset :
    EveryStep (countedStep twoFailures) (OpensAtThreshold twoFailures) ⟨⟨0, {}, [], 0, 0⟩, 0⟩
      [.report .failure, .report .success, .reset, .report .failure, .report .failure] :=
  opens_at_threshold twoFailures (by decide) 0 _ (by decide +kernel)

/-- **Failures from before a reset still count.** A closed circuit with one failure is reset,
and the next failure opens it, one short of the threshold. -/
theorem reset_keeps_failures :
    ¬ EveryStep (countedStep twoFailures) (OpensAtThreshold twoFailures)
      ⟨⟨0, {}, [], 0, 0⟩, 0⟩ [.report .failure, .reset, .report .failure] := by
  decide +kernel

end PyCommon.CircuitBreaker
