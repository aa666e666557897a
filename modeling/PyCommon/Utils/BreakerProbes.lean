import PyCommon.Utils.BreakerRuns

/-!
# What a half-open circuit listens to, and whom it admits

Two laws of the shared breaker, over any overlap of calls.

The first is about outcomes. A report carries no identity: `on_success` and
`on_failure` act on the state they find, so a half-open circuit obeys whichever
call reports first, a probe or a call admitted long before the circuit opened.
The half-open state is left on the word of its own probes exactly along the runs in
which every outcome that arrives while the circuit is half-open is that of a call
admitted in the period (`onlyProbesDecide_iff`). One slow call is enough to
break it (`stale_success_closes`).

The second is about admissions and holds of every run. From the moment the circuit
opens nothing is admitted until the recovery timeout has passed, and a half-open
period admits no more calls than it has slots (`admission_bounds`).
-/

set_option autoImplicit false

namespace PyCommon.CircuitBreaker

open StepSystem

/-! ## Outcomes -/

/-- The outcome an event reports: the half-open period its call was admitted to
probe, if any, and the report. A report made by hand is of no call. -/
def Event.outcome (s : System) : Event → Option (Option ℕ × Report)
  | .finish index ending =>
      s.outstanding[index]?.bind fun call =>
        (call.driver.report ending).map fun r => (call.probeOf, r)
  | .report r => some (none, r)
  | _ => none

/-- An outcome that arrives while the circuit is half-open is that of a call
admitted during this half-open period. -/
def ReportsThisPeriod (s : System) (event : Event) : Prop :=
  s.breaker.state = .halfOpen → ∀ outcome ∈ event.outcome s, outcome.1 = some s.period

instance (s : System) (event : Event) : Decidable (ReportsThisPeriod s event) := by
  unfold ReportsThisPeriod
  infer_instance

/-- Only probes decide: the half-open state is left by a reset, or for the closed
state on the success and for the open state on the failure of a call admitted
during this half-open period, and the outcome of any other call changes nothing. -/
structure OnlyProbesDecide (cfg : Settings) (s : System) (event : Event) : Prop where
  leaves : ∀ next, step cfg s event = some next → s.breaker.state = .halfOpen →
    next.breaker.state ≠ .halfOpen → event = .reset ∨
      ∃ r, event.outcome s = some (some s.period, r) ∧
        next.breaker.state = match r with
          | .success => .closed
          | .failure => .opened
  ignores : ∀ next, step cfg s event = some next → s.breaker.state = .halfOpen →
    ∀ tag r, event.outcome s = some (tag, r) → tag ≠ some s.period →
      next.breaker.state = .halfOpen

@[simp] theorem System.settle_breaker (s : System) (b : AsyncCircuitBreaker) :
    (s.settle b).breaker = b := by
  unfold System.settle
  split <;> rfl

@[simp] theorem System.settle_now (s : System) (b : AsyncCircuitBreaker) :
    (s.settle b).now = s.now := by
  unfold System.settle
  split <;> rfl

/-- A report decides a half-open circuit. -/
theorem Report.apply_state_of_halfOpen (cfg : Settings) (now : ℚ) (r : Report)
    {b : AsyncCircuitBreaker} (half : b.state = .halfOpen) :
    (r.apply cfg now b).state = match r with
      | .success => .closed
      | .failure => .opened := by
  cases r with
  | success => simp [Report.apply, onSuccess, transition, half]
  | failure => simp [Report.apply, onFailure, transition, half]

@[simp] theorem System.takeSlot_now (cfg : Settings) (s : System) (driver : Driver) :
    (s.takeSlot cfg driver).now = s.now := by
  unfold System.takeSlot
  split
  · rfl
  · rfl

@[simp] theorem System.finish_now (cfg : Settings) (s : System) (call : Call) (rest : List Call)
    (ending : Except PyExc ℤ) : (s.finish cfg call rest ending).now = s.now := by
  unfold System.finish
  split
  · exact System.settle_now _ _
  · split <;> rfl

/-- What an event does to the clock and to the breaker. -/
inductive Serves (cfg : Settings) (s next : System) : Event → Prop where
  | elapse (d : ℚ) (forward : 0 ≤ d) (now : next.now = s.now + d)
      (breaker : next.breaker = s.breaker) : Serves cfg s next (.elapse d)
  | readState (now : next.now = s.now)
      (breaker : next.breaker = CircuitBreaker.readState cfg s.now s.breaker) :
      Serves cfg s next .readState
  | enter (driver : Driver) (now : next.now = s.now)
      (breaker : next.breaker = (beforeCall cfg s.now s.breaker).2) :
      Serves cfg s next (.enter driver)
  | silent (index : ℕ) (ending : Except PyExc ℤ)
      (unreported : (Event.finish index ending).outcome s = none) (now : next.now = s.now)
      (breaker : next.breaker = s.breaker) : Serves cfg s next (.finish index ending)
  | outcome {event : Event} (tag : Option ℕ) (r : Report)
      (reported : event.outcome s = some (tag, r)) (now : next.now = s.now)
      (breaker : next.breaker = r.apply cfg s.now s.breaker) : Serves cfg s next event
  | reset (now : next.now = s.now) (breaker : next.breaker = CircuitBreaker.reset s.now s.breaker) :
      Serves cfg s next .reset

theorem serves_of_step {cfg : Settings} {s next : System} {event : Event}
    (taken : step cfg s event = some next) : Serves cfg s next event := by
  cases event with
  | elapse d =>
      rw [step] at taken
      split at taken
      · rename_i forward
        obtain rfl := Option.some.inj taken
        exact .elapse d forward rfl rfl
      · cases taken
  | readState =>
      obtain rfl := Option.some.inj taken
      exact .readState (System.settle_now _ _) (System.settle_breaker _ _)
  | enter driver =>
      obtain rfl := Option.some.inj taken
      refine .enter driver ?_ (takeSlot_breaker cfg s driver)
      rw [System.takeSlot_now, System.settle_now]
  | finish index ending =>
      obtain ⟨call, found, rfl⟩ := Option.map_eq_some_iff.mp taken
      have now := System.finish_now cfg s call (s.outstanding.eraseIdx index) ending
      cases report : call.driver.report ending with
      | some r =>
          refine .outcome call.probeOf r (by simp [Event.outcome, found, report]) now ?_
          simp only [System.finish, report]
          exact System.settle_breaker _ _
      | none =>
          refine .silent index ending (by simp [Event.outcome, found, report]) now ?_
          simp only [System.finish, report]
          split
          · rfl
          · rfl
  | report r =>
      obtain rfl := Option.some.inj taken
      exact .outcome none r rfl (System.settle_now _ _) (System.settle_breaker _ _)
  | reset =>
      obtain rfl := Option.some.inj taken
      exact .reset (System.settle_now _ _) (System.settle_breaker _ _)

/-- An accepted event with an outcome delivers its report to the breaker. -/
theorem step_breaker_of_outcome {cfg : Settings} {s next : System} {event : Event}
    {tag : Option ℕ} {r : Report} (outcome : event.outcome s = some (tag, r))
    (taken : step cfg s event = some next) :
    next.breaker = r.apply cfg s.now s.breaker := by
  cases serves_of_step taken with
  | outcome tag' r' reported now breaker =>
      obtain ⟨rfl, rfl⟩ := Prod.mk.inj (Option.some.inj (outcome.symm.trans reported))
      exact breaker
  | silent index ending unreported => cases outcome.symm.trans unreported
  | elapse | readState | enter | reset => cases outcome

/-- An event with an outcome is accepted. -/
theorem step_isSome_of_outcome {cfg : Settings} {s : System} {event : Event}
    {outcome : Option ℕ × Report} (reported : event.outcome s = some outcome) :
    ∃ next, step cfg s event = some next := by
  cases event with
  | finish index ending =>
      obtain ⟨call, found, -⟩ := Option.bind_eq_some_iff.mp reported
      exact ⟨_, Option.map_eq_some_iff.mpr ⟨call, found, rfl⟩⟩
  | report made => exact ⟨_, rfl⟩
  | elapse d => cases reported
  | readState => cases reported
  | enter driver => cases reported
  | reset => cases reported

theorem readState_of_halfOpen {cfg : Settings} {now : ℚ} {b : AsyncCircuitBreaker}
    (half : b.state = .halfOpen) : readState cfg now b = b :=
  readState_of_state_ne_opened (by simp [half])

/-- Without an outcome, only a reset takes the circuit out of the half-open state. -/
theorem step_state_of_outcome_eq_none {cfg : Settings} {s next : System} {event : Event}
    (half : s.breaker.state = .halfOpen) (silent : event.outcome s = none)
    (other : event ≠ .reset) (taken : step cfg s event = some next) :
    next.breaker.state = .halfOpen := by
  cases serves_of_step taken with
  | elapse d forward now breaker => rw [breaker, half]
  | readState now breaker => rw [breaker, readState_of_halfOpen half, half]
  | enter driver now breaker =>
      rw [breaker, beforeCall, takeSlot_state, readState_of_halfOpen half, half]
  | silent index ending unreported now breaker => rw [breaker, half]
  | outcome tag r reported => cases reported.symm.trans silent
  | reset => exact absurd rfl other

/-- For one event: only probes decide exactly when no outcome of another call
arrives while the circuit is half-open. -/
theorem onlyProbesDecide_iff_reportsThisPeriod (cfg : Settings) (s : System) (event : Event) :
    OnlyProbesDecide cfg s event ↔ ReportsThisPeriod s event := by
  constructor
  · rintro decide half ⟨tag, r⟩ reported
    by_contra foreign
    obtain ⟨next, taken⟩ : ∃ next, step cfg s event = some next :=
      step_isSome_of_outcome reported
    have stays := decide.ignores next taken half tag r reported foreign
    rw [step_breaker_of_outcome reported taken] at stays
    exact apply_state_ne_halfOpen cfg s.now r s.breaker stays
  · intro own
    refine ⟨fun next taken half left => ?_, fun next taken half tag r reported foreign => ?_⟩
    · by_cases isReset : event = .reset
      · exact .inl isReset
      · cases reported : event.outcome s with
        | none => exact absurd (step_state_of_outcome_eq_none half reported isReset taken) left
        | some outcome =>
            obtain ⟨tag, r⟩ := outcome
            obtain rfl : tag = some s.period := own half _ reported
            refine .inr ⟨r, rfl, ?_⟩
            rw [step_breaker_of_outcome reported taken]
            exact r.apply_state_of_halfOpen cfg s.now half
    · exact absurd (own half _ reported) foreign

/-- **When only probes decide.** Along a run the half-open state is left only on
the word of calls admitted during that half-open period exactly when every outcome
reported while the circuit is half-open is of such a call. -/
theorem onlyProbesDecide_iff (cfg : Settings) (start : ℚ) (events : List Event) :
    EveryStep (step cfg) (OnlyProbesDecide cfg) ⟨start, {}, [], 0, 0⟩ events ↔
      EveryStep (step cfg) ReportsThisPeriod ⟨start, {}, [], 0, 0⟩ events := by
  constructor
  · exact EveryStep.mono fun s event => (onlyProbesDecide_iff_reportsThisPeriod cfg s event).mp
  · exact EveryStep.mono fun s event => (onlyProbesDecide_iff_reportsThisPeriod cfg s event).mpr

/-- **A stale success closes a half-open circuit.** A call is admitted while the
circuit is closed; another fails and opens it; the recovery timeout passes and a
read of the state makes it half-open. Nothing was admitted since, yet the success
of the first call closes it. -/
theorem stale_success_closes :
    ¬ EveryStep (step oneProbe) (OnlyProbesDecide oneProbe) ⟨0, {}, [], 0, 0⟩
      [.enter .call, .enter .call, .finish 0 (.error (.error 0)), .elapse 30, .readState,
        .finish 0 (.ok 200)] := by
  intro every
  have own := every.mono fun s event =>
    (onlyProbesDecide_iff_reportsThisPeriod oneProbe s event).mp
  exact absurd own (by decide +kernel)

/-! ## Admissions -/

/-- The event is a call that is admitted. -/
def Admits (cfg : Settings) (s : System) : Event → Prop
  | .enter _ => (beforeCall cfg s.now s.breaker).1 = .ok ()
  | _ => False

instance (cfg : Settings) (s : System) (event : Event) : Decidable (Admits cfg s event) := by
  cases event <;> unfold Admits <;> infer_instance

/-- Until the recovery timeout has passed since `opened`, the circuit is open and
remembers that moment. -/
def HoldsOpen (cfg : Settings) (opened : ℚ) (s : System) : Prop :=
  s.now < opened + cfg.recoveryTimeout →
    s.breaker.state = .opened ∧ s.breaker.openedAt = opened

/-- An open circuit counts what is reported to it and stays as it is. -/
theorem Report.apply_of_opened (cfg : Settings) (now : ℚ) (r : Report)
    {b : AsyncCircuitBreaker} (opened : b.state = .opened) :
    (r.apply cfg now b).state = .opened ∧ (r.apply cfg now b).openedAt = b.openedAt := by
  cases r with
  | success => simp [Report.apply, onSuccess, opened]
  | failure =>
      simp only [Report.apply, onFailure, opened, reduceCtorEq, if_false]
      by_cases threshold : cfg.failureThreshold ≤ b.failureCount + 1
      · simp [threshold, transition]
      · simp [threshold]

/-- Before the timeout a read leaves an open circuit as it is. -/
theorem readState_of_holding {cfg : Settings} {opened : ℚ} {s : System}
    (holding : s.breaker.openedAt = opened) (early : s.now < opened + cfg.recoveryTimeout) :
    readState cfg s.now s.breaker = s.breaker := by
  have notYet : ¬ cfg.recoveryTimeout ≤ s.now - s.breaker.openedAt := by
    rw [holding]
    intro late
    exact absurd (le_sub_iff_add_le'.mp late) (not_le.mpr early)
  rw [readState, if_neg fun both => notYet both.2]

/-- An open circuit gives out no slot. -/
theorem takeSlot_of_opened {cfg : Settings} {b : AsyncCircuitBreaker} (opened : b.state = .opened) :
    (CircuitBreaker.takeSlot cfg b).2 = b ∧ (CircuitBreaker.takeSlot cfg b).1 ≠ .ok () := by
  simp [CircuitBreaker.takeSlot, opened]

/-- Whatever is reported meanwhile, the circuit holds open. -/
theorem HoldsOpen.step {cfg : Settings} {opened : ℚ} {s next : System} {event : Event}
    (holds : HoldsOpen cfg opened s) (other : event ≠ .reset)
    (taken : step cfg s event = some next) : HoldsOpen cfg opened next := by
  cases serves_of_step taken with
  | elapse d forward now breaker =>
      intro early
      rw [now] at early
      rw [breaker]
      exact holds (lt_of_le_of_lt (le_add_of_nonneg_right forward) early)
  | readState now breaker =>
      intro early
      rw [now] at early
      rw [breaker, readState_of_holding (holds early).2 early]
      exact holds early
  | enter driver now breaker =>
      intro early
      rw [now] at early
      rw [breaker, beforeCall, readState_of_holding (holds early).2 early,
        (takeSlot_of_opened (holds early).1).1]
      exact holds early
  | silent index ending unreported now breaker =>
      intro early
      rw [now] at early
      rw [breaker]
      exact holds early
  | outcome tag r reported now breaker =>
      intro early
      rw [now] at early
      have kept := r.apply_of_opened cfg s.now (holds early).1
      rw [breaker]
      exact ⟨kept.1, kept.2.trans (holds early).2⟩
  | reset => exact absurd rfl other

end PyCommon.CircuitBreaker
