import Mathlib.Data.List.Count
import Mathlib.Data.List.Perm.Basic
import PyCommon.Lib.Runs
import PyCommon.Utils.CircuitBreaker

/-!
# Runs of a shared circuit breaker

Any number of calls share one breaker. Each is admitted by `before_call`, stays
outstanding for as long as it likes, and reports through its driver when it ends.
Reads of `state`, resets, hand-made reports and the passage of time fall anywhere
between.

Two history variables say what the breaker cannot see: the number of half-open
periods entered so far, and the number of probes of the current period that ended
without a report. A call remembers the period it was admitted to probe.

The slots of a half-open period are held by its outstanding probes and by the
lost ones (`Accounted`), in every reachable state (`accounted_of_run`). So when
nothing is outstanding and the recovery timeout has passed, the next call is
admitted exactly when the period has not lost all its slots (`admitted_iff_lost_lt`).
A probe driven by `call` or by the transport loses its slot when it is cancelled,
and with one slot that refuses every later call (`cancelled_probe_wedges`).
-/

set_option autoImplicit false

namespace PyCommon.CircuitBreaker

open StepSystem

/-- An admitted call that has not ended. -/
structure Call where
  driver : Driver
  probeOf : Option ℕ
  deriving DecidableEq

structure System where
  now : ℚ
  breaker : AsyncCircuitBreaker := {}
  outstanding : List Call := []
  period : ℕ := 0
  lost : ℕ := 0
  deriving DecidableEq

inductive Event where
  | elapse (d : ℚ)
  | readState
  | enter (driver : Driver)
  | finish (index : ℕ) (ending : Except PyExc ℤ)
  | report (r : Report)
  | reset

/-- Install the breaker an operation produced, and open a new period when the
operation entered the half-open state. -/
def System.settle (s : System) (b : AsyncCircuitBreaker) : System :=
  if b.state = .halfOpen ∧ s.breaker.state ≠ .halfOpen then
    { s with breaker := b, period := s.period + 1, lost := 0 }
  else { s with breaker := b }

/-- A call that asks to be admitted, once the state has been read. -/
def System.takeSlot (cfg : Settings) (s : System) (driver : Driver) : System :=
  match CircuitBreaker.takeSlot cfg s.breaker with
  | (.ok _, b) =>
      let probeOf := if s.breaker.state = .halfOpen then some s.period else none
      { s with breaker := b, outstanding := ⟨driver, probeOf⟩ :: s.outstanding }
  | (.error _, b) => { s with breaker := b }

/-- A call ends: it leaves the outstanding calls and reports, or is lost. -/
def System.finish (cfg : Settings) (s : System) (call : Call) (rest : List Call)
    (ending : Except PyExc ℤ) : System :=
  match call.driver.report ending with
  | some r => { s with outstanding := rest }.settle (r.apply cfg s.now s.breaker)
  | none =>
      if s.breaker.state = .halfOpen ∧ call.probeOf = some s.period then
        { s with outstanding := rest, lost := s.lost + 1 }
      else { s with outstanding := rest }

def step (cfg : Settings) (s : System) : Event → Option System
  | .elapse d => if 0 ≤ d then some { s with now := s.now + d } else none
  | .readState => some (s.settle (readState cfg s.now s.breaker))
  | .enter driver => some ((s.settle (readState cfg s.now s.breaker)).takeSlot cfg driver)
  | .finish index ending =>
      s.outstanding[index]?.map fun call =>
        s.finish cfg call (s.outstanding.eraseIdx index) ending
  | .report r => some (s.settle (r.apply cfg s.now s.breaker))
  | .reset => some (s.settle (reset s.now s.breaker))

/-- Entering through the system is `before_call` on its breaker. -/
theorem takeSlot_breaker (cfg : Settings) (s : System) (driver : Driver) :
    ((s.settle (readState cfg s.now s.breaker)).takeSlot cfg driver).breaker =
      (beforeCall cfg s.now s.breaker).2 := by
  have installed : (s.settle (readState cfg s.now s.breaker)).breaker =
      readState cfg s.now s.breaker := by
    unfold System.settle
    split <;> rfl
  simp only [System.takeSlot, beforeCall, installed]
  rcases CircuitBreaker.takeSlot cfg (readState cfg s.now s.breaker) with ⟨_ | _, b⟩ <;> rfl

/-! ## Accounting for probe slots -/

/-- The outstanding calls admitted as probes of the period. -/
def probes (period : ℕ) (calls : List Call) : ℕ :=
  calls.countP fun call => call.probeOf = some period

/-- In the half-open state every slot taken is held by an outstanding probe of
the period or was lost, and no call belongs to a period still to come. -/
structure Accounted (s : System) : Prop where
  slots : s.breaker.state = .halfOpen →
    s.breaker.halfOpenCalls = probes s.period s.outstanding + s.lost
  tags : ∀ call ∈ s.outstanding, ∀ period, call.probeOf = some period → period ≤ s.period

theorem accounted_init (now : ℚ) : Accounted ⟨now, {}, [], 0, 0⟩ where
  slots half := by cases half
  tags _ member := by cases member

theorem probes_eq_zero {calls : List Call} {period : ℕ}
    (earlier : ∀ call ∈ calls, ∀ other, call.probeOf = some other → other < period) :
    probes period calls = 0 := by
  rw [probes, List.countP_eq_zero]
  intro call member same
  exact absurd (earlier call member period (by simpa using same)) (lt_irrefl period)

/-- An operation that keeps the count of probes keeps the accounting. -/
theorem Accounted.settle {s : System} (accounted : Accounted s) {b : AsyncCircuitBreaker}
    (keeps : KeepsProbeCount s.breaker b) : Accounted (s.settle b) := by
  unfold System.settle
  split
  · rename_i entered
    refine ⟨fun half => ?_, fun call member period tag => ?_⟩
    · have fresh : probes (s.period + 1) s.outstanding = 0 :=
        probes_eq_zero fun call member other tag =>
          Nat.lt_succ_of_le (accounted.tags call member other tag)
      rw [keeps half, if_neg entered.2, fresh, Nat.zero_add]
    · exact Nat.le_succ_of_le (accounted.tags call member period tag)
  · rename_i stayed
    refine ⟨fun half => ?_, accounted.tags⟩
    have already : s.breaker.state = .halfOpen := by
      by_contra other
      exact stayed ⟨half, other⟩
    rw [keeps half, if_pos already]
    exact accounted.slots already

/-- An admission takes a slot exactly when it adds a probe. -/
theorem Accounted.takeSlot {cfg : Settings} {s : System} (accounted : Accounted s)
    (driver : Driver) : Accounted (s.takeSlot cfg driver) := by
  have state := takeSlot_state cfg s.breaker
  have calls := @takeSlot_halfOpenCalls cfg s.breaker
  unfold System.takeSlot
  rcases outcome : CircuitBreaker.takeSlot cfg s.breaker with ⟨_ | _, b⟩
  · rw [outcome] at state calls
    refine ⟨fun half => ?_, accounted.tags⟩
    have already : s.breaker.state = .halfOpen := state.symm.trans half
    simpa [accounted.slots already] using calls already
  · rw [outcome] at state calls
    refine ⟨fun half => ?_, fun call member period tag => ?_⟩
    · have already : s.breaker.state = .halfOpen := state.symm.trans half
      have taken := calls already
      simp only [accounted.slots already, if_true] at taken
      simp only [already, if_true, probes, List.countP_cons, decide_true]
      simp only [probes] at taken
      omega
    · rcases List.mem_cons.mp member with rfl | older
      · by_cases already : s.breaker.state = .halfOpen
        · simp only [already, if_true, Option.some.injEq] at tag
          exact tag.ge
        · simp [already] at tag
      · exact accounted.tags call older period tag

/-- Removing an outstanding call removes at most its own probe. -/
theorem probes_eraseIdx {calls : List Call} {index : ℕ} {call : Call}
    (found : calls[index]? = some call) (period : ℕ) :
    probes period calls =
      probes period (calls.eraseIdx index) + if call.probeOf = some period then 1 else 0 := by
  obtain ⟨within, rfl⟩ := List.getElem?_eq_some_iff.mp found
  have counted := (List.getElem_cons_eraseIdx_perm within).countP_eq
    fun call : Call => decide (call.probeOf = some period)
  rw [probes, ← counted, List.countP_cons]
  simp [probes]

/-- A call that ends gives its slot back by reporting, or loses it. -/
theorem Accounted.finish {cfg : Settings} {s : System} (accounted : Accounted s) {index : ℕ}
    {call : Call} (found : s.outstanding[index]? = some call) (ending : Except PyExc ℤ) :
    Accounted (s.finish cfg call (s.outstanding.eraseIdx index) ending) := by
  have tags : ∀ other ∈ s.outstanding.eraseIdx index, ∀ period,
      other.probeOf = some period → period ≤ s.period := fun other member =>
    accounted.tags other (List.mem_of_mem_eraseIdx member)
  have counted := probes_eraseIdx found s.period
  unfold System.finish
  cases call.driver.report ending with
  | some r =>
      -- A report never leaves the circuit half-open, so no slot is left to account for.
      have leaves := apply_state_ne_halfOpen cfg s.now r s.breaker
      simp only [System.settle, leaves, false_and, if_false]
      exact ⟨fun half => absurd half leaves, tags⟩
  | none =>
      dsimp only
      split
      · rename_i own
        refine ⟨fun half => ?_, tags⟩
        have slots := accounted.slots own.1
        simp only [own.2, if_true] at counted
        simp only
        omega
      · rename_i foreign
        refine ⟨fun half => ?_, tags⟩
        have slots := accounted.slots half
        rw [if_neg fun tag => foreign ⟨half, tag⟩] at counted
        simp only
        omega

/-- Every event keeps the accounting. -/
theorem Accounted.step {cfg : Settings} {s next : System} {event : Event}
    (accounted : Accounted s) (taken : step cfg s event = some next) : Accounted next := by
  cases event with
  | elapse d =>
      simp only [CircuitBreaker.step] at taken
      split at taken
      · obtain rfl := Option.some.inj taken
        exact ⟨accounted.slots, accounted.tags⟩
      · cases taken
  | readState =>
      obtain rfl := Option.some.inj taken
      exact accounted.settle (readState_keeps cfg s.now s.breaker)
  | enter driver =>
      obtain rfl := Option.some.inj taken
      exact (accounted.settle (readState_keeps cfg s.now s.breaker)).takeSlot driver
  | finish index ending =>
      obtain ⟨call, found, rfl⟩ := Option.map_eq_some_iff.mp taken
      exact accounted.finish found ending
  | report r =>
      obtain rfl := Option.some.inj taken
      exact accounted.settle (apply_keeps cfg s.now r s.breaker)
  | reset =>
      obtain rfl := Option.some.inj taken
      exact accounted.settle (reset_keeps s.now s.breaker)

theorem accounted_of_run {cfg : Settings} {start : ℚ} {s : System} {events : List Event}
    (run : exec (step cfg) ⟨start, {}, [], 0, 0⟩ events = some s) : Accounted s :=
  exec_invariant_always (fun _ _ _ accounted taken => accounted.step taken) run
    (accounted_init start)

/-! ## Recovery -/

/-- **When a circuit with nothing outstanding admits a call.** Once the recovery
timeout has passed since the circuit last opened, the next `before_call` is
admitted exactly when the half-open period the circuit is in, if any, has lost
fewer probes than it has slots. -/
theorem admitted_iff_lost_lt (cfg : Settings) (slots : 1 ≤ cfg.halfOpenMaxCalls) (start : ℚ)
    (events : List Event) (s : System)
    (run : exec (step cfg) ⟨start, {}, [], 0, 0⟩ events = some s)
    (idle : s.outstanding = [])
    (elapsed : s.breaker.state = .opened → cfg.recoveryTimeout ≤ s.now - s.breaker.openedAt) :
    (beforeCall cfg s.now s.breaker).1 = .ok () ↔
      (s.breaker.state = .halfOpen → s.lost < cfg.halfOpenMaxCalls) := by
  have accounted := accounted_of_run run
  rw [beforeCall, takeSlot_ok_iff]
  cases state : s.breaker.state with
  | closed => simp [readState_of_state_ne_opened, state]
  | opened =>
      rw [readState_of_elapsed state (elapsed state)]
      simp only [reduceCtorEq, ne_eq, not_false_eq_true, true_and, false_implies, iff_true]
      exact fun _ => slots
  | halfOpen =>
      rw [readState_of_state_ne_opened (by simp [state]), accounted.slots state, idle]
      simp [state, probes]

/-- The settings of a breaker that opens on the first failure and probes once. -/
def oneProbe : Settings := { failureThreshold := 1, recoveryTimeout := 30, halfOpenMaxCalls := 1 }

/-- The premises of the recovery law hold in a run with two slots, one of them
lost to a cancelled probe: the second slot still admits. -/
theorem admitted_with_one_of_two_lost :
    (beforeCall { oneProbe with halfOpenMaxCalls := 2 } 40
        ⟨.halfOpen, 1, 0, 1⟩).1 = .ok () :=
  (admitted_iff_lost_lt { oneProbe with halfOpenMaxCalls := 2 } (by decide) 0
    [.enter .call, .finish 0 (.error (.error 0)), .elapse 30, .enter .call,
      .finish 0 (.error .cancelledError), .elapse 10]
    ⟨40, ⟨.halfOpen, 1, 0, 1⟩, [], 1, 1⟩ (by decide +kernel) rfl (by decide)).mpr
    (fun _ => by decide)

/-- **A cancelled probe wedges the circuit.** A call through `call` fails and
opens the circuit, the probe admitted after the recovery timeout is cancelled, and
a thousand seconds later, with nothing outstanding, the next call is refused. -/
theorem cancelled_probe_wedges :
    ∃ s, exec (step oneProbe) ⟨0, {}, [], 0, 0⟩
        [.enter .call, .finish 0 (.error (.error 0)), .elapse 30, .enter .call,
          .finish 0 (.error .cancelledError), .elapse 1000] = some s ∧
      s.outstanding = [] ∧ oneProbe.recoveryTimeout ≤ s.now - s.breaker.openedAt ∧
      (beforeCall oneProbe s.now s.breaker).1 ≠ .ok () :=
  ⟨⟨1030, ⟨.halfOpen, 1, 0, 1⟩, [], 1, 1⟩, by decide +kernel, rfl, by decide +kernel,
    by decide +kernel⟩

end PyCommon.CircuitBreaker
