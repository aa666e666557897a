import Mathlib.Data.List.TakeWhile
import Mathlib.Data.Nat.Notation

/-!
# Unwinding a lifespan

`build_lifespan` starts resources in order, then a gRPC server, and hands over to the
application. However that ends, it stops the server if it was started, and shuts the started
resources down in reverse order. Each of these steps is guarded by `except Exception`, so that
one that fails is logged and does not keep the others from being tried.

What the guard lets through is `asyncio.CancelledError`, which is no `Exception`. A hook that
raises it ends the unwinding there and then, and takes the place of the exception that began
it.

The lifespan is an async generator, and no generator lets `StopIteration` or
`StopAsyncIteration` through: it ends with a `RuntimeError` in their place. The context
manager around it undoes that for what the application has raised, but not for what a start
has.

So a lifespan unwinds as promised exactly when no hook but the last one called on the way out
raises `CancelledError`, not even that one after a failure, and the failure of a start is not
one of these two (`unwinds_iff`).
-/

set_option autoImplicit false

namespace PyCommon.Lifespan

/-- What a hook or the application raises: an `Exception`, of which two kinds are told apart
from the others, or `CancelledError`. -/
inductive HookError where
  | error (code : ℕ)
  | stopIteration
  | stopAsyncIteration
  | cancelledError
  deriving DecidableEq

def HookError.isException : HookError → Bool
  | .cancelledError => false
  | .error _ | .stopIteration | .stopAsyncIteration => true

/-- One that no generator lets through. -/
def HookError.endsIteration : HookError → Bool
  | .stopIteration | .stopAsyncIteration => true
  | .error _ | .cancelledError => false

/-- A resource, by what its hooks raise when they are awaited, if they do. -/
structure LifespanResource where
  name : String
  startup : Option HookError
  shutdown : Option (Option HookError)
  deriving DecidableEq

structure GrpcServer where
  start : Option HookError
  stop : Option HookError
  deriving DecidableEq

/-- The calls a lifespan makes; `body` is the application, while the lifespan is at its
`yield`. -/
inductive Call where
  | startup (resource : LifespanResource)
  | grpcStart
  | body
  | grpcStop
  | shutdown (resource : LifespanResource)
  deriving DecidableEq

/-- An exception, with the call that raised it. -/
abbrev Raised := Call × HookError

/-- The calls made and the exception raised, if one was. -/
abbrev Trace := List Call × Option Raised

/-- What comes out of `async with`: an exception as it was raised, or the `RuntimeError` that
a generator raises in its place. -/
inductive Escaped where
  | raised (raised : Raised)
  | runtimeError (cause : Raised)
  deriving DecidableEq

/-! ## The lifespan -/

/-- A use of a lifespan. `body` is what the application raises, if it does. -/
structure Episode where
  resources : List LifespanResource
  grpcServer : Option GrpcServer
  body : Option HookError
  deriving DecidableEq

/-- The `try` when it is left: what was called, `started`, `grpc_started`, and what was
raised. -/
structure Entered where
  calls : List Call
  started : List LifespanResource
  grpcStarted : Bool
  raised : Option Raised

/-- The server is started, and the application runs. -/
def serve (grpcServer : Option GrpcServer) (body : Option HookError) : Entered :=
  match grpcServer with
  | none => ⟨[.body], [], false, body.map fun e => (.body, e)⟩
  | some server =>
      match server.start with
      | some e => ⟨[.grpcStart], [], false, some (.grpcStart, e)⟩
      | none => ⟨[.grpcStart, .body], [], true, body.map fun e => (.body, e)⟩

/-- The resources are started, and the rest follows. -/
def start (rest : Entered) : List LifespanResource → Entered
  | [] => rest
  | resource :: later =>
      match resource.startup with
      | some e => ⟨[.startup resource], [], false, some (.startup resource, e)⟩
      | none =>
          let entered := start rest later
          { entered with
            calls := .startup resource :: entered.calls
            started := resource :: entered.started }

/-- `await hook()` in a `try` with `except Exception`, and what follows it. -/
def guarded (call : Call) (outcome : Option HookError) (rest : Trace) : Trace :=
  match outcome with
  | some e => if e.isException then (call :: rest.1, rest.2) else ([call], some (call, e))
  | none => (call :: rest.1, rest.2)

/-- The loop that shuts the resources down. -/
def stopResources : List LifespanResource → Trace
  | [] => ([], none)
  | resource :: later =>
      match resource.shutdown with
      | none => stopResources later
      | some outcome => guarded (.shutdown resource) outcome (stopResources later)

/-- The `finally`. -/
def unwind (grpcServer : Option GrpcServer) (entered : Entered) : Trace :=
  match grpcServer with
  | some server =>
      if entered.grpcStarted then
        guarded .grpcStop server.stop (stopResources entered.started.reverse)
      else stopResources entered.started.reverse
  | none => stopResources entered.started.reverse

/-- The body of `lifespan`. An exception that leaves the `finally` takes the place of the one
before. -/
def generator (episode : Episode) : Trace :=
  let entered := start (serve episode.grpcServer episode.body) episode.resources
  let unwound := unwind episode.grpcServer entered
  (entered.calls ++ unwound.1, unwound.2 <|> entered.raised)

/-- How an exception leaves the async generator, and then the context manager of
`asynccontextmanager`, which gives back to the application what it raised itself. -/
def leave (raised : Raised) : Escaped :=
  if raised.2.endsIteration ∧ raised.1 ≠ .body then .runtimeError raised else .raised raised

/-- `lifespan`, entered and left with `async with`. -/
def lifespan (episode : Episode) : List Call × Option Escaped :=
  ((generator episode).1, (generator episode).2.map leave)

/-! ## What unwinding promises -/

def LifespanResource.starts (resource : LifespanResource) : Bool := resource.startup.isNone

def GrpcServer.starts (server : GrpcServer) : Bool := server.start.isNone

/-- The resources whose start returns. -/
def Episode.up (episode : Episode) : List LifespanResource :=
  episode.resources.takeWhile LifespanResource.starts

/-- The first resource whose start fails. -/
def Episode.broken (episode : Episode) : Option LifespanResource :=
  episode.resources.find? fun resource => !resource.starts

/-- What is called on the way in: the resources in order until the first that fails, then the
server, then the application. -/
def Episode.wayIn (episode : Episode) : List Call :=
  episode.up.map .startup ++
    match episode.broken with
    | some resource => [.startup resource]
    | none =>
        match episode.grpcServer with
        | none => [.body]
        | some server => if server.starts then [.grpcStart, .body] else [.grpcStart]

/-- The hooks to call on the way out, with what they raise: the server's, if its start
returned, and then those of the resources whose start returned, in reverse order. -/
def Episode.wayOut (episode : Episode) : List (Call × Option HookError) :=
  (match episode.broken, episode.grpcServer with
    | none, some server => if server.starts then [(.grpcStop, server.stop)] else []
    | _, _ => []) ++
    episode.up.reverse.filterMap fun resource =>
      resource.shutdown.map fun outcome => (.shutdown resource, outcome)

/-- The failure to start, or that of the application. -/
def Episode.failure (episode : Episode) : Option Raised :=
  match episode.broken with
  | some resource => resource.startup.map fun e => (.startup resource, e)
  | none =>
      match episode.grpcServer.bind GrpcServer.start with
      | some e => some (.grpcStart, e)
      | none => episode.body.map fun e => (.body, e)

/-- The calls are those of the way in and of the way out, each once and in order, and a
failure is what comes out. -/
structure Unwinds (episode : Episode) (trace : List Call × Option Escaped) : Prop where
  calls : trace.1 = episode.wayIn ++ episode.wayOut.map Prod.fst
  propagates : ∀ failure ∈ episode.failure, trace.2 = some (.raised failure)

/-- A hook that returns, or raises an `Exception`. -/
def Contained (hook : Call × Option HookError) : Prop := ∀ e ∈ hook.2, e.isException = true

instance (hook : Call × Option HookError) : Decidable (Contained hook) :=
  inferInstanceAs (Decidable (∀ e ∈ hook.2, e.isException = true))

/-! ## The way in -/

section WayIn

variable (rest : Entered) {resources : List LifespanResource}

/-- All resources start, and the rest follows. -/
theorem start_of_up (up : resources.find? (fun resource => !resource.starts) = none) :
    start rest resources =
      { rest with
        calls := resources.map .startup ++ rest.calls
        started := resources ++ rest.started } := by
  induction resources with
  | nil => rfl
  | cons resource later ih =>
      rw [List.find?_cons] at up
      cases startup : resource.startup with
      | some e => simp [LifespanResource.starts, startup] at up
      | none =>
          simp only [LifespanResource.starts, startup, Option.isNone_none, Bool.not_true] at up
          simp only [start, startup, ih up, List.map_cons, List.cons_append]

/-- One resource fails to start, after those before it. -/
theorem start_of_broken {broken : LifespanResource}
    (first : resources.find? (fun resource => !resource.starts) = some broken) :
    ∃ e, broken.startup = some e ∧ start rest resources =
      ⟨(resources.takeWhile LifespanResource.starts).map .startup ++ [.startup broken],
        resources.takeWhile LifespanResource.starts, false, some (.startup broken, e)⟩ := by
  induction resources with
  | nil => cases first
  | cons resource later ih =>
      rw [List.find?_cons] at first
      cases startup : resource.startup with
      | some e =>
          simp only [LifespanResource.starts, startup, Option.isNone_some, Bool.not_false,
            Option.some.injEq] at first
          subst first
          refine ⟨e, startup, ?_⟩
          simp [start, startup, LifespanResource.starts]
      | none =>
          simp only [LifespanResource.starts, startup, Option.isNone_none, Bool.not_true] at first
          obtain ⟨e, raises, same⟩ := ih first
          refine ⟨e, raises, ?_⟩
          simp [start, startup, same, LifespanResource.starts]

end WayIn

/-! ## The way out -/

/-- Guarded hooks, one after the other. -/
def attempt (hooks : List (Call × Option HookError)) : Trace :=
  hooks.foldr (fun hook rest => guarded hook.1 hook.2 rest) ([], none)

theorem attempt_cons (hook : Call × Option HookError) (rest : List (Call × Option HookError)) :
    attempt (hook :: rest) = guarded hook.1 hook.2 (attempt rest) := rfl

theorem guarded_of_contained {hook : Call × Option HookError} (contained : Contained hook)
    (rest : Trace) : guarded hook.1 hook.2 rest = (hook.1 :: rest.1, rest.2) := by
  obtain ⟨call, outcome⟩ := hook
  cases outcome with
  | none => rfl
  | some e => exact if_pos (contained e rfl)

/-- A hook that is not contained ends the unwinding. -/
theorem guarded_of_not_contained {hook : Call × Option HookError} (escapes : ¬ Contained hook) :
    ∃ e, ∀ rest, guarded hook.1 hook.2 rest = ([hook.1], some (hook.1, e)) := by
  obtain ⟨call, outcome⟩ := hook
  cases outcome with
  | none => exact absurd (fun e none_ => absurd none_ (Option.not_mem_none e)) escapes
  | some e =>
      refine ⟨e, fun rest => if_neg fun isException => escapes fun other same => ?_⟩
      obtain rfl := Option.some.inj same
      exact isException

/-- Every hook is called exactly when none but the last escapes. -/
theorem attempt_calls_iff (hooks : List (Call × Option HookError)) :
    (attempt hooks).1 = hooks.map Prod.fst ↔ ∀ hook ∈ hooks.dropLast, Contained hook := by
  induction hooks with
  | nil => exact ⟨fun _ hook none_ => absurd none_ List.not_mem_nil, fun _ => rfl⟩
  | cons hook rest ih =>
      rw [attempt_cons, List.map_cons]
      by_cases contained : Contained hook
      · rw [guarded_of_contained contained, List.cons.injEq, and_iff_right rfl, ih]
        cases rest with
        | nil => rfl
        | cons next later => rw [List.dropLast_cons_cons, List.forall_mem_cons,
            and_iff_right contained]
      · obtain ⟨e, ends⟩ := guarded_of_not_contained contained
        rw [ends]
        cases rest with
        | nil => exact ⟨fun _ hook none_ => absurd none_ List.not_mem_nil, fun _ => rfl⟩
        | cons next later =>
            rw [List.dropLast_cons_cons, List.forall_mem_cons]
            exact ⟨fun same => (by cases same), fun every => absurd every.1 contained⟩

/-- Nothing comes out exactly when no hook escapes. -/
theorem attempt_raised_iff (hooks : List (Call × Option HookError)) :
    (attempt hooks).2 = none ↔ ∀ hook ∈ hooks, Contained hook := by
  induction hooks with
  | nil => exact ⟨fun _ hook none_ => absurd none_ List.not_mem_nil, fun _ => rfl⟩
  | cons hook rest ih =>
      rw [attempt_cons, List.forall_mem_cons]
      by_cases contained : Contained hook
      · rw [guarded_of_contained contained, ih, and_iff_right contained]
      · obtain ⟨e, ends⟩ := guarded_of_not_contained contained
        rw [ends]
        exact ⟨fun none_ => (by cases none_), fun every => absurd every.1 contained⟩

/-- What comes out was raised by one of the hooks. -/
theorem attempt_raised_mem {hooks : List (Call × Option HookError)} {raised : Raised}
    (escaped : (attempt hooks).2 = some raised) : raised.1 ∈ hooks.map Prod.fst := by
  induction hooks with
  | nil => cases escaped
  | cons hook rest ih =>
      rw [attempt_cons] at escaped
      by_cases contained : Contained hook
      · rw [guarded_of_contained contained] at escaped
        exact List.mem_cons_of_mem _ (ih escaped)
      · obtain ⟨e, ends⟩ := guarded_of_not_contained contained
        rw [ends] at escaped
        obtain rfl := Option.some.inj escaped
        exact List.mem_cons_self

theorem stopResources_eq (resources : List LifespanResource) :
    stopResources resources = attempt (resources.filterMap fun resource =>
      resource.shutdown.map fun outcome => (.shutdown resource, outcome)) := by
  induction resources with
  | nil => rfl
  | cons resource later ih =>
      cases hook : resource.shutdown with
      | none => simp only [stopResources, hook, ih, List.filterMap_cons, Option.map_none]
      | some outcome =>
          simp only [stopResources, hook, ih, List.filterMap_cons, Option.map_some, attempt_cons]

/-! ## Unwinding -/

/-- A server that was not started is not stopped. -/
theorem unwind_of_not_grpcStarted {entered : Entered} (notStarted : entered.grpcStarted = false)
    (grpcServer : Option GrpcServer) :
    unwind grpcServer entered = stopResources entered.started.reverse := by
  cases grpcServer with
  | none => rfl
  | some server => simp only [unwind, notStarted, Bool.false_eq_true, if_false]

theorem Episode.up_eq_resources {episode : Episode} (unbroken : episode.broken = none) :
    episode.up = episode.resources := by
  have starts : ∀ resource ∈ episode.resources, resource.starts = true := by
    simpa [Episode.broken] using unbroken
  exact List.takeWhile_eq_self_iff.2 starts

/-- A resource that fails to start ends the way in, and the server is not reached. -/
theorem generator_of_broken {episode : Episode} {resource : LifespanResource}
    (broken : episode.broken = some resource) :
    generator episode = (episode.wayIn ++ (attempt episode.wayOut).1,
      (attempt episode.wayOut).2 <|> episode.failure) := by
  obtain ⟨e, raises, entered⟩ := start_of_broken (serve episode.grpcServer episode.body) broken
  simp only [generator, Episode.wayIn, Episode.wayOut, Episode.failure, broken, entered, raises,
    unwind_of_not_grpcStarted, stopResources_eq, Option.map_some, List.nil_append]
  rfl

/-- When every resource starts, the server and the application decide. -/
theorem generator_of_unbroken {episode : Episode} (unbroken : episode.broken = none) :
    generator episode = (episode.wayIn ++ (attempt episode.wayOut).1,
      (attempt episode.wayOut).2 <|> episode.failure) := by
  have entered := start_of_up (serve episode.grpcServer episode.body) unbroken
  simp only [generator, Episode.wayIn, Episode.wayOut, Episode.failure, unbroken, entered,
    episode.up_eq_resources unbroken]
  cases episode.grpcServer with
  | none =>
      simp only [serve, unwind, stopResources_eq, List.append_nil, List.nil_append,
        Option.bind_none]
  | some server =>
      cases begins : server.start with
      | none =>
          simp only [serve, begins, GrpcServer.starts, unwind, stopResources_eq, List.append_nil,
            Option.isNone_none, if_true, List.cons_append, List.nil_append, attempt_cons,
            Option.bind_some]
      | some e =>
          simp only [serve, begins, GrpcServer.starts, unwind, stopResources_eq, List.append_nil,
            Option.isNone_some, Bool.false_eq_true, if_false, List.nil_append, Option.bind_some]

/-- **A lifespan is the way in and the attempt at the way out.** -/
theorem generator_eq (episode : Episode) :
    generator episode = (episode.wayIn ++ (attempt episode.wayOut).1,
      (attempt episode.wayOut).2 <|> episode.failure) := by
  cases broken : episode.broken with
  | some resource => exact generator_of_broken broken
  | none => exact generator_of_unbroken broken

/-! ## When a lifespan unwinds -/

/-- A call made on the way out. -/
def Call.stops : Call → Bool
  | .grpcStop | .shutdown _ => true
  | .startup _ | .grpcStart | .body => false

theorem stops_of_mem_wayOut {episode : Episode} {call : Call}
    (mem : call ∈ episode.wayOut.map Prod.fst) : call.stops = true := by
  obtain ⟨hook, hookMem, rfl⟩ := List.mem_map.1 mem
  rcases List.mem_append.1 hookMem with server | resource
  · split at server
    · split at server
      · obtain rfl := List.mem_singleton.1 server
        rfl
      · cases server
    · cases server
  · obtain ⟨resource, -, called⟩ := List.mem_filterMap.1 resource
    obtain ⟨outcome, -, rfl⟩ := Option.map_eq_some_iff.1 called
    rfl

theorem not_stops_of_failure {episode : Episode} {failure : Raised}
    (failed : episode.failure = some failure) : failure.1.stops = false := by
  unfold Episode.failure at failed
  split at failed
  · obtain ⟨e, -, rfl⟩ := Option.map_eq_some_iff.1 failed
    rfl
  · split at failed
    · obtain rfl := Option.some.inj failed
      rfl
    · obtain ⟨e, -, rfl⟩ := Option.map_eq_some_iff.1 failed
      rfl

/-- What escapes on the way out is not the failure that began it. -/
theorem escaped_ne_failure {episode : Episode} {failure escaped : Raised}
    (failed : episode.failure = some failure)
    (escapes : (attempt episode.wayOut).2 = some escaped) : escaped ≠ failure := by
  rintro rfl
  have stops := stops_of_mem_wayOut (attempt_raised_mem escapes)
  rw [not_stops_of_failure failed] at stops
  cases stops

/-- A start that fails does not do so with an exception that no generator lets through. -/
def Startable (failure : Raised) : Prop := failure.2.endsIteration → failure.1 = .body

instance (failure : Raised) : Decidable (Startable failure) :=
  inferInstanceAs (Decidable (failure.2.endsIteration → failure.1 = .body))

theorem leave_eq_raised_iff {raised failure : Raised} :
    leave raised = .raised failure ↔ raised = failure ∧ Startable failure := by
  unfold leave Startable
  split
  · rename_i converted
    simp only [reduceCtorEq, false_iff, not_and]
    rintro rfl startable
    exact converted.2 (startable converted.1)
  · rename_i through
    rw [Escaped.raised.injEq, iff_self_and]
    rintro rfl ends
    by_contra other
    exact through ⟨ends, other⟩

theorem propagates_iff (episode : Episode) :
    (∀ failure ∈ episode.failure, (lifespan episode).2 = some (.raised failure)) ↔
      ∀ failure ∈ episode.failure,
        Startable failure ∧ ∀ hook ∈ episode.wayOut, Contained hook := by
  refine forall₂_congr fun failure failed => ?_
  have failed : episode.failure = some failure := failed
  rw [← attempt_raised_iff, lifespan, generator_eq, failed]
  cases escapes : (attempt episode.wayOut).2 with
  | none => simp [leave_eq_raised_iff]
  | some escaped => simp [leave_eq_raised_iff, escaped_ne_failure failed escapes]

/-- **A lifespan unwinds exactly when no hook called on the way out but the last raises
`CancelledError`, and after a failure not even that one, nor a start `StopIteration` or
`StopAsyncIteration`.** -/
theorem unwinds_iff (episode : Episode) :
    Unwinds episode (lifespan episode) ↔
      (∀ hook ∈ episode.wayOut.dropLast, Contained hook) ∧
        ∀ failure ∈ episode.failure,
          Startable failure ∧ ∀ hook ∈ episode.wayOut, Contained hook := by
  rw [← attempt_calls_iff, ← propagates_iff]
  have called : (lifespan episode).1 = episode.wayIn ++ (attempt episode.wayOut).1 := by
    rw [lifespan, generator_eq]
  constructor
  · rintro ⟨calls, propagates⟩
    rw [called] at calls
    exact ⟨List.append_cancel_left calls, propagates⟩
  · rintro ⟨calls, propagates⟩
    refine ⟨?_, propagates⟩
    rw [called, calls]

/-- The cache is closed by awaiting a task that it cancelled: the database is never closed, and
the failure of the application is lost. -/
theorem cancelled_shutdown_strands :
    ∃ db cache : LifespanResource,
      let episode : Episode := ⟨[db, cache], none, some (.error 500)⟩
      episode.wayOut.map Prod.fst = [.shutdown cache, .shutdown db] ∧
        lifespan episode =
          ([.startup db, .startup cache, .body, .shutdown cache],
            some (.raised (.shutdown cache, .cancelledError))) ∧
        ¬ Unwinds episode (lifespan episode) := by
  refine ⟨⟨"db", none, some none⟩, ⟨"cache", none, some (some .cancelledError)⟩, rfl, rfl, ?_⟩
  rintro ⟨calls, -⟩
  exact absurd (congrArg List.length calls) (by decide)

/-- A feed is started by awaiting the next item of an iterator that has none: the database is
closed, and what comes out is a `RuntimeError`. -/
theorem exhausted_start_converted :
    ∃ db feed : LifespanResource,
      let episode : Episode := ⟨[db, feed], none, none⟩
      episode.failure = some (.startup feed, .stopAsyncIteration) ∧
        lifespan episode =
          ([.startup db, .startup feed, .shutdown db],
            some (.runtimeError (.startup feed, .stopAsyncIteration))) ∧
        ¬ Unwinds episode (lifespan episode) := by
  refine ⟨⟨"db", none, some none⟩, ⟨"feed", some .stopAsyncIteration, none⟩, rfl, rfl, ?_⟩
  rintro ⟨-, propagates⟩
  exact absurd (propagates _ rfl) (by decide)

end PyCommon.Lifespan
