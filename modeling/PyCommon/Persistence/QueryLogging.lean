import Mathlib.Algebra.Order.Field.Rat
import Mathlib.Data.List.Induction
import Mathlib.Logic.Function.Basic

/-!
# Structured query logging

`install_query_logger` registers three listeners on an engine, once, however often it is called.
The first notes on the context of an execution when it began; the others read the time off the
context of the execution that has ended or failed. Executions on the connections of an engine
overlap, and one that has failed reaches no second listener.

So every execution is logged with its own duration, to the logger and under the settings of the
first installation, whatever other executions begin, end or fail meanwhile; and a failure is logged
however fast it was (`query_logged`).
-/

set_option autoImplicit false

namespace PyCommon.QueryLogging

variable {Params : Type}

/-- A logger, by its name and its truth value. -/
structure Logger where
  name : String
  truthy : Bool := true
  deriving DecidableEq

/-- `logger`, that of the module. -/
def logger : Logger where
  name := "py_common.persistence.query_logging"

/-- The arguments of `install_query_logger`. -/
structure Settings where
  slowQueryThresholdMs : ℚ := 0
  logParams : Bool := false
  log : Option Logger := none
  deriving DecidableEq

/-- `log or logger`. -/
def Settings.boundLogger (settings : Settings) : Logger :=
  (settings.log.filter Logger.truthy).getD logger

/-! ## The log -/

/-- `_truncate`. -/
def truncate (statement : List Char) : List Char :=
  if statement.length ≤ 2000 then statement else statement.take 2000 ++ ['…']

inductive Level where
  | debug
  | warning
  deriving DecidableEq

/-- What a logger is told. -/
inductive Entry (Params : Type) where
  | query (level : Level) (event : String) (statement : List Char) (rowsAffected : ℤ)
      (durationMs : ℚ) (executemany : Bool) (params : Option Params)
  | failed (level : Level) (event : String) (statement error : List Char)
      (durationMs : Option ℚ) (params : Option Params)
  deriving DecidableEq

/-- What a cursor was given and has done. -/
structure Execution (Params : Type) where
  statement : List Char
  parameters : Params
  executemany : Bool := false
  rowcount : Option ℤ := none
  deriving DecidableEq

/-- A failure, as SQLAlchemy reports it. -/
structure ExceptionContext (Params : Type) where
  statement : Option (List Char)
  parameters : Option Params
  originalException : List Char
  deriving DecidableEq

/-! ## An engine -/

/-- An engine: the closures that are registered with it, by their settings; whether it has been
marked; the clock; what the contexts of executions hold; and what loggers have been told. -/
structure Engine (Params : Type) where
  listeners : List Settings := []
  installed : Bool := false
  now : ℚ := 0
  started : ℕ → Option ℚ := fun _ => none
  log : List (Logger × Entry Params) := []

namespace Engine

variable (round : ℚ → ℚ) (engine : Engine Params)

/-- `_elapsed_ms`. -/
def elapsedMs (context : Option ℕ) : Option ℚ :=
  (context.bind engine.started).map fun started => round ((engine.now - started) * 1000)

/-- `_before_cursor_execute`. -/
def beforeCursorExecute (context : Option ℕ) : Engine Params :=
  match context with
  | some context =>
      { engine with started := Function.update engine.started context (some engine.now) }
  | none => engine

/-- `_after_cursor_execute`. -/
def afterCursorExecute (context : Option ℕ) (execution : Execution Params) (settings : Settings) :
    Engine Params :=
  match engine.elapsedMs round context with
  | none => engine
  | some durationMs =>
      if 0 < settings.slowQueryThresholdMs ∧ durationMs < settings.slowQueryThresholdMs then
        engine
      else
        let params := if settings.logParams then some execution.parameters else none
        let entry (level : Level) (event : String) : Entry Params :=
          .query level event (truncate execution.statement) (execution.rowcount.getD (-1))
            durationMs execution.executemany params
        if 0 < settings.slowQueryThresholdMs then
          { engine with
            log := engine.log ++ [(settings.boundLogger, entry .warning "slow_query")] }
        else
          { engine with log := engine.log ++ [(settings.boundLogger, entry .debug "db_query")] }

/-- `_handle_error`. -/
def handleError (context : Option ℕ) (exception : ExceptionContext Params) (settings : Settings) :
    Engine Params :=
  match exception.statement with
  | none => engine
  | some statement =>
      let params := if settings.logParams then exception.parameters else none
      let entry := .failed .warning "db_query_failed" (truncate statement)
        exception.originalException (engine.elapsedMs round context) params
      { engine with log := engine.log ++ [(settings.boundLogger, entry)] }

/-- `install_query_logger`. -/
def install (settings : Settings) : Engine Params :=
  if engine.installed then engine
  else { engine with listeners := engine.listeners ++ [settings], installed := true }

end Engine

/-- What happens to an engine. SQLAlchemy calls every closure that is registered. -/
inductive Event (Params : Type) where
  | install (settings : Settings)
  | elapse (seconds : ℚ)
  | begun (context : Option ℕ)
  | ended (context : Option ℕ) (execution : Execution Params)
  | failed (context : Option ℕ) (exception : ExceptionContext Params)
  deriving DecidableEq

def step (round : ℚ → ℚ) (engine : Engine Params) : Event Params → Engine Params
  | .install settings => engine.install settings
  | .elapse seconds => { engine with now := engine.now + seconds }
  | .begun context =>
      engine.listeners.foldl (fun engine _ => engine.beforeCursorExecute context) engine
  | .ended context execution =>
      engine.listeners.foldl (fun engine => engine.afterCursorExecute round context execution)
        engine
  | .failed context exception =>
      engine.listeners.foldl (fun engine => engine.handleError round context exception) engine

/-- The engine after these events. -/
def after (round : ℚ → ℚ) (engine : Engine Params) (events : List (Event Params)) :
    Engine Params :=
  events.foldl (step round) engine

section Runs

variable {round : ℚ → ℚ} {engine : Engine Params} {front middle events : List (Event Params)}

theorem after_append :
    after round engine (front ++ events) = after round (after round engine front) events :=
  List.foldl_append

theorem after_concat {event : Event Params} :
    after round engine (events ++ [event]) = step round (after round engine events) event :=
  after_append

/-! ## One listener of each kind -/

/-- The settings of an installation. -/
def Event.settings : Event Params → Option Settings
  | .install settings => some settings
  | _ => none

/-- The settings in force: those of the first installation. -/
def settingsOf (events : List (Event Params)) : Option Settings := events.findSome? Event.settings

theorem settingsOf_concat {event : Event Params} :
    settingsOf (events ++ [event]) = (settingsOf events).or event.settings := by
  rw [settingsOf, List.findSome?_append]
  cases settings : event.settings <;> simp [settings, settingsOf]

variable (round engine) in
/-- What an event does to an engine with one listener of each kind, or none. -/
inductive Does : Event Params → Engine Params → Prop where
  | installed {settings : Settings} (unmarked : engine.installed = false) :
      Does (.install settings)
        { engine with listeners := engine.listeners ++ [settings], installed := true }
  | again {settings : Settings} (marked : engine.installed = true) :
      Does (.install settings) engine
  | elapsed {seconds : ℚ} : Does (.elapse seconds) { engine with now := engine.now + seconds }
  | unheard {event : Event Params} (deaf : engine.listeners = [])
      (late : event.settings = none) (timeless : ∀ seconds, event ≠ .elapse seconds) :
      Does event engine
  | begun {context : Option ℕ} {settings : Settings} (hears : engine.listeners = [settings]) :
      Does (.begun context) (engine.beforeCursorExecute context)
  | ended {context : Option ℕ} {execution : Execution Params} {settings : Settings}
      (hears : engine.listeners = [settings]) :
      Does (.ended context execution) (engine.afterCursorExecute round context execution settings)
  | failed {context : Option ℕ} {exception : ExceptionContext Params} {settings : Settings}
      (hears : engine.listeners = [settings]) :
      Does (.failed context exception) (engine.handleError round context exception settings)

theorem does_of_step (round : ℚ → ℚ)
    (single : ∃ settings : Option Settings, engine.listeners = settings.toList)
    (event : Event Params) : Does round engine event (step round engine event) := by
  obtain ⟨settings, listeners⟩ := single
  cases event with
  | install settings =>
      by_cases marked : engine.installed = true
      · rw [step, Engine.install, if_pos marked]
        exact .again marked
      · rw [step, Engine.install, if_neg marked]
        exact .installed (Bool.eq_false_iff.mpr marked)
  | elapse seconds => exact .elapsed
  | begun context =>
      cases settings with
      | none =>
          rw [step, listeners]
          exact .unheard listeners rfl fun _ same => by cases same
      | some settings =>
          rw [step, listeners]
          exact .begun listeners
  | ended context execution =>
      cases settings with
      | none =>
          rw [step, listeners]
          exact .unheard listeners rfl fun _ same => by cases same
      | some settings =>
          rw [step, listeners]
          exact .ended listeners
  | failed context exception =>
      cases settings with
      | none =>
          rw [step, listeners]
          exact .unheard listeners rfl fun _ same => by cases same
      | some settings =>
          rw [step, listeners]
          exact .failed listeners

/-! ### What the listeners leave as it is -/

theorem before_keeps (engine : Engine Params) (context : Option ℕ) :
    (engine.beforeCursorExecute context).listeners = engine.listeners ∧
      (engine.beforeCursorExecute context).installed = engine.installed ∧
      (engine.beforeCursorExecute context).now = engine.now := by
  cases context <;> exact ⟨rfl, rfl, rfl⟩

/-- A listener that writes a line at most. -/
theorem afterCursorExecute_writes (round : ℚ → ℚ) (engine : Engine Params) (context : Option ℕ)
    (execution : Execution Params) (settings : Settings) :
    ∃ entries, engine.afterCursorExecute round context execution settings =
      { engine with log := engine.log ++ entries } ∧ entries.length ≤ 1 := by
  unfold Engine.afterCursorExecute
  split
  · exact ⟨[], by simp, Nat.zero_le 1⟩
  · split
    · exact ⟨[], by simp, Nat.zero_le 1⟩
    · dsimp only
      split
      · exact ⟨_, rfl, Nat.le_refl 1⟩
      · exact ⟨_, rfl, Nat.le_refl 1⟩

theorem handleError_writes (round : ℚ → ℚ) (engine : Engine Params) (context : Option ℕ)
    (exception : ExceptionContext Params) (settings : Settings) :
    ∃ entries, engine.handleError round context exception settings =
      { engine with log := engine.log ++ entries } ∧ entries.length ≤ 1 := by
  unfold Engine.handleError
  split
  · exact ⟨[], by simp, Nat.zero_le 1⟩
  · exact ⟨_, rfl, Nat.le_refl 1⟩

theorem registered (round : ℚ → ℚ) (events : List (Event Params)) :
    (after round {} events).listeners = (settingsOf events).toList ∧
      (after round {} events).installed = (settingsOf events).isSome := by
  induction events using List.reverseRecOn with
  | nil => exact ⟨rfl, rfl⟩
  | append_singleton events event ih =>
      obtain ⟨listeners, marked⟩ := ih
      have does := does_of_step round ⟨_, listeners⟩ event
      rw [after_concat, settingsOf_concat]
      revert does
      generalize step round (after round {} events) event = next
      intro does
      cases does with
      | installed unmarked =>
          have first : settingsOf events = none := by
            rw [unmarked] at marked
            exact Option.isNone_iff_eq_none.mp (by simpa using marked.symm)
          simp [first, listeners, Event.settings]
      | again known =>
          obtain ⟨settings, first⟩ := Option.isSome_iff_exists.mp (marked.symm.trans known)
          simp [first, listeners, marked]
      | elapsed => simp [Event.settings, listeners, marked]
      | unheard deaf late => simp [late, listeners, marked]
      | @begun context =>
          obtain ⟨same, same', -⟩ := before_keeps (after round {} events) context
          simp [Event.settings, same, same', listeners, marked]
      | @ended context execution settings =>
          obtain ⟨entries, same, -⟩ := afterCursorExecute_writes round
            (after round {} events) context execution settings
          simp [Event.settings, same, listeners, marked]
      | @failed context exception settings =>
          obtain ⟨entries, same, -⟩ := handleError_writes round
            (after round {} events) context exception settings
          simp [Event.settings, same, listeners, marked]

theorem doesAfter (round : ℚ → ℚ) (events : List (Event Params)) (event : Event Params) :
    Does round (after round {} events) event (after round {} (events ++ [event])) := by
  rw [after_concat]
  exact does_of_step round ⟨_, (registered round events).1⟩ event

/-! ## An execution -/

/-- The time that an event takes. -/
def Event.seconds : Event Params → ℚ
  | .elapse seconds => seconds
  | _ => 0

theorem seconds_of_timeless {event : Event Params}
    (timeless : ∀ seconds, event ≠ .elapse seconds) : event.seconds = 0 := by
  cases event with
  | elapse seconds => exact absurd rfl (timeless seconds)
  | _ => rfl

/-- The time that passes during these events. -/
def duration (events : List (Event Params)) : ℚ := (events.map Event.seconds).sum

/-- An execution that is under way keeps its start, whatever happens to others. -/
theorem started_during (round : ℚ → ℚ) {context : ℕ} {settings : Settings}
    (installed : settingsOf front = some settings)
    (alone : ∀ event ∈ middle, event ≠ .begun (some context)) :
    ∃ start, (after round {} (front ++ .begun (some context) :: middle)).started context =
        some start ∧
      (after round {} (front ++ .begun (some context) :: middle)).now =
        start + duration middle := by
  induction middle using List.reverseRecOn with
  | nil =>
      have does := doesAfter round front (.begun (some context))
      revert does
      generalize after round {} (front ++ [.begun (some context)]) = next
      intro does
      have hears := (registered round front).1
      cases does with
      | unheard deaf =>
          rw [installed, deaf] at hears
          cases hears
      | begun hears => exact ⟨_, Function.update_self .., (add_zero _).symm⟩
  | append_singleton middle event ih =>
      obtain ⟨start, started, now⟩ := ih fun earlier member =>
        alone earlier (List.mem_append_left _ member)
      have other := alone event (List.mem_append_right _ (List.mem_singleton_self event))
      have does := doesAfter round (front ++ .begun (some context) :: middle) event
      rw [List.append_assoc, List.cons_append] at does
      have longer : duration (middle ++ [event]) = duration middle + event.seconds := by
        simp [duration]
      refine ⟨start, ?_⟩
      rw [longer, ← add_assoc, ← now]
      revert does
      generalize after round {} (front ++ .begun (some context) :: (middle ++ [event])) = next
      intro does
      cases does with
      | installed unmarked => exact ⟨started, (add_zero _).symm⟩
      | again marked => exact ⟨started, (add_zero _).symm⟩
      | elapsed => exact ⟨started, rfl⟩
      | unheard deaf late timeless =>
          rw [seconds_of_timeless timeless, add_zero]
          exact ⟨started, rfl⟩
      | @begun begun settings hears =>
          refine ⟨?_, by rw [(before_keeps _ begun).2.2]; exact (add_zero _).symm⟩
          cases begun with
          | none => exact started
          | some begun =>
              have apart : context ≠ begun := fun same => other (same ▸ rfl)
              exact (Function.update_of_ne apart ..).trans started
      | @ended begun execution settings hears =>
          obtain ⟨entries, same, -⟩ := afterCursorExecute_writes round
            (after round {} (front ++ .begun (some context) :: middle)) begun execution settings
          rw [same]
          exact ⟨started, (add_zero _).symm⟩
      | @failed begun exception settings hears =>
          obtain ⟨entries, same, -⟩ := handleError_writes round
            (after round {} (front ++ .begun (some context) :: middle)) begun exception settings
          rw [same]
          exact ⟨started, (add_zero _).symm⟩

/-- What is logged of an execution that took `seconds` and has not failed. -/
def logged (round : ℚ → ℚ) (settings : Settings) (seconds : ℚ) (execution : Execution Params) :
    List (Logger × Entry Params) :=
  let slow := 0 < settings.slowQueryThresholdMs
  let params := if settings.logParams then some execution.parameters else none
  if slow ∧ round (seconds * 1000) < settings.slowQueryThresholdMs then []
  else
    [(settings.boundLogger,
      .query (if slow then .warning else .debug) (if slow then "slow_query" else "db_query")
        (truncate execution.statement) (execution.rowcount.getD (-1)) (round (seconds * 1000))
        execution.executemany params)]

/-- **Every execution is logged once, with its own duration**, to the logger of the first
installation, whatever happens to others while it is under way. -/
theorem query_logged {context : ℕ} {settings : Settings}
    (installed : settingsOf front = some settings)
    (alone : ∀ event ∈ middle, event ≠ .begun (some context)) :
    (∀ execution : Execution Params,
      (after round {} (front ++ .begun (some context) :: middle ++
          [.ended (some context) execution])).log =
        (after round {} (front ++ .begun (some context) :: middle)).log ++
          logged round settings (duration middle) execution) ∧
    ∀ (exception : ExceptionContext Params) (statement : List Char),
      exception.statement = some statement →
      (after round {} (front ++ .begun (some context) :: middle ++
          [.failed (some context) exception])).log =
        (after round {} (front ++ .begun (some context) :: middle)).log ++
          [(settings.boundLogger,
            .failed .warning "db_query_failed" (truncate statement) exception.originalException
              (some (round (duration middle * 1000)))
              (if settings.logParams then exception.parameters else none))] := by
  obtain ⟨start, started, now⟩ := started_during round installed alone
  have hears := (registered round (front ++ .begun (some context) :: middle)).1
  have force : settingsOf (front ++ .begun (some context) :: middle) = some settings := by
    rw [settingsOf, List.findSome?_append]
    exact congrArg (Option.or · _) installed
  rw [force] at hears
  have elapsed : (after round {} (front ++ .begun (some context) :: middle)).elapsedMs round
      (some context) = some (round (duration middle * 1000)) := by
    rw [Engine.elapsedMs, Option.bind_some, started, now, Option.map_some, add_sub_cancel_left]
  refine ⟨fun execution => ?_, fun exception statement stated => ?_⟩
  · rw [after_concat, step, hears]
    simp only [Option.toList_some, List.foldl_cons, List.foldl_nil, Engine.afterCursorExecute,
      elapsed, logged]
    split
    · rw [List.append_nil]
    · split <;> rfl
  · rw [after_concat, step, hears]
    simp only [Option.toList_some, List.foldl_cons, List.foldl_nil, Engine.handleError, stated,
      elapsed]

end Runs

/-! ## Two executions that overlap -/

/-- The logger that a service has given. -/
def audit : Logger where
  name := "audit"

/-- What happens during a slow query: another one on the same engine fails, and the module's own
logger is installed. -/
def meanwhile : List (Event Unit) :=
  [.elapse (1 / 4), .begun (some 1), .install {},
    .failed (some 1) ⟨some "SELECT 2".toList, none, "deadlock".toList⟩, .elapse (1 / 2)]

theorem meanwhile_logged :
    (after (fun ms => ms) {} ([.install { slowQueryThresholdMs := 500, log := some audit }] ++
        .begun (some 0) :: meanwhile ++
          [.ended (some 0) ⟨"SELECT 1".toList, (), false, some 1⟩])).log =
      [(audit, .failed .warning "db_query_failed" "SELECT 2".toList "deadlock".toList
          (some 0) none),
        (audit, .query .warning "slow_query" "SELECT 1".toList 1 750 false none)] := by
  rw [(query_logged rfl (by decide)).1]
  decide +kernel

end PyCommon.QueryLogging
