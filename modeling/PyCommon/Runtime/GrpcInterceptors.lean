import Mathlib.Algebra.Order.Field.Rat
import Mathlib.Logic.Function.Basic
import PyCommon.Asgi
import PyCommon.Lib.Coroutines
import PyCommon.Lib.PythonValues

/-!
# Interceptors of gRPC calls

Two interceptors stand around every handler of a `GrpcServer`. One binds the request id
of the metadata, or a new one, as long as the handler runs, and puts back what was bound
before; the other records how long the call took and how it ended. Each replaces the
behavior of the handler that was looked up by a wrapper, and leaves everything else of
the handler alone (`behavior_lookup`).

A behavior is a coroutine, or, when it streams its response, a call that gives an async
iterable or something to be awaited first. A wrapped stream hands the messages on in a
loop of its own.
-/

set_option autoImplicit false

namespace PyCommon.Grpc

open Coroutines

/-! ## What a call reads and writes -/

/-- What `context.code()` gives. A code has a name, and anything else is written out. -/
inductive ContextCode where
  | raises
  | unset
  | named (name : String)
  | other (written : String)
  deriving DecidableEq

/-- `_status_name`. -/
def statusName : ContextCode → String
  | .raises => "UNKNOWN"
  | .unset => "OK"
  | .named name => name
  | .other written => written

/-- A call of `rpc_server_duration.record`. The system is always `grpc`. -/
structure Measurement where
  service : String
  method : String
  statusCode : String
  errorType : Option String
  duration : ℚ
  deriving DecidableEq

/-- The context variables of the logger in the task of the call, the status of the call, the
clock, and what has been recorded. -/
structure World where
  contextvars : String → Option String := fun _ => none
  code : ContextCode := .unset
  perfCounter : ℚ := 0
  durations : List Measurement := []

def requestIdKey : String := "request_id"

/-- `current_request_id`. -/
def World.currentRequestId (world : World) : Option String := world.contextvars requestIdKey

def World.bind (world : World) (value : Option String) : World :=
  { world with contextvars := Function.update world.contextvars requestIdKey value }

@[simp] theorem World.currentRequestId_bind (world : World) (value : Option String) :
    (world.bind value).currentRequestId = value := by
  rw [World.currentRequestId, World.bind]
  exact Function.update_self requestIdKey value world.contextvars

/-! ## Metadata -/

inductive MetadataValue where
  | str (value : String)
  | bytes (raw : Bytes)
  deriving DecidableEq

/-- `v if isinstance(v, str) else str(v)`. -/
def MetadataValue.toStr : MetadataValue → String
  | .str value => value
  | .bytes raw => String.ofList ((Python.reprBytes raw).map Char.ofNat)

abbrev Metadata := List (String × MetadataValue)

def requestIdMetadataKey : String := "x-request-id"

/-- `_metadata_value`. -/
def metadataValue (metadata : Option Metadata) (key : String) : Option String :=
  (metadata.getD []).findSome? fun entry =>
    if lower entry.1 = key then some entry.2.toStr else none

/-- What the interceptors read of `grpc.HandlerCallDetails`. -/
structure HandlerCallDetails where
  method : String
  invocationMetadata : Option Metadata := none

/-- The id of a call, given the one that would be generated. -/
def HandlerCallDetails.requestId (details : HandlerCallDetails) (generated : String) : String :=
  match metadataValue details.invocationMetadata requestIdMetadataKey with
  | some value => if value = "" then generated else value
  | none => generated

/-- `_split_method`. -/
def splitMethod (fullMethod : String) : String × String :=
  let path := fullMethod.toList.dropWhile (· = '/')
  let service := String.ofList (path.takeWhile (· ≠ '/'))
  let method := String.ofList ((path.dropWhile (· ≠ '/')).drop 1)
  (if service = "" then "unknown" else service, if method = "" then "unknown" else method)

/-! ## Behaviors -/

variable {Await Answer Message Error Result : Type}

/-- The behavior of a handler with a single response, a coroutine. -/
structure UnaryBehavior (Await Answer Error Result : Type) where
  State : Type
  start : State
  code : Code World State Await Answer Empty Error Result

/-- What the call of a streaming behavior gives: an async iterable, something that is awaited, or
neither. -/
inductive Called (State : Type) where
  | iterable (s : State)
  | awaitable (s : State)
  | other

/-- The behavior of a handler that streams its response. What is awaited may give an async
iterable. -/
structure StreamBehavior (Await Answer Message Error : Type) where
  State : Type
  call : World → World × Except Error (Called State)
  coroutine : Code World State Await Answer Empty Error (Option State)
  generator : Code World State Await Answer Message Error Unit

/-- A function that is an async generator. -/
def StreamBehavior.ofGenerator {State : Type} (start : State)
    (code : Code World State Await Answer Message Error Unit) :
    StreamBehavior Await Answer Message Error where
  State := State
  call world := (world, .ok (.iterable start))
  coroutine _ _ world := (world, .ends (.ok none))
  generator := code

/-- Where the loop over a streaming behavior is. -/
inductive Iterating (State : Type) where
  | calling
  | awaiting (s : State)
  | looping (s : State ⊕ State)
  deriving DecidableEq

namespace StreamBehavior

variable (typeError : Error) (b : StreamBehavior Await Answer Message Error)

/-- `async for message in result: yield message`. -/
def loop (s : b.State ⊕ b.State) (input : Input Answer Error) (world : World) :
    World × Rest (Iterating b.State) Await Message Error Unit :=
  let done := relay b.generator s input world
  (done.1, done.2.map .looping)

/-- `result = await result`, and the loop over it. -/
def awaited (done : World × Rest b.State Await Empty Error (Option b.State)) :
    World × Rest (Iterating b.State) Await Message Error Unit :=
  match done.2 with
  | .awaits awaited s => (done.1, .awaits awaited (.awaiting s))
  | .ends (.error e) => (done.1, .ends (.error e))
  | .ends (.ok (some s)) => b.loop (.inl s) .next done.1
  | .ends (.ok none) => (done.1, .ends (.error typeError))

/-- What a wrapper makes of a streaming behavior. -/
def stream : Code World (Iterating b.State) Await Answer Message Error Unit
  | .calling, _, world =>
      match b.call world with
      | (world, .error e) => (world, .ends (.error e))
      | (world, .ok (.iterable s)) => b.loop (.inl s) .next world
      | (world, .ok (.awaitable s)) => b.awaited typeError (b.coroutine s .next world)
      | (world, .ok .other) => (world, .ends (.error typeError))
  | .awaiting s, input, world => b.awaited typeError (b.coroutine s input world)
  | .looping s, input, world => b.loop s input world

end StreamBehavior

/-! ## Handlers -/

/-- The field of a handler that holds its behavior. -/
inductive BehaviorField where
  | unaryUnary
  | unaryStream
  | streamUnary
  | streamStream
  deriving DecidableEq

structure RpcMethodHandler (Await Answer Message Error Result : Type) where
  requestStreaming : Bool
  responseStreaming : Bool
  unaryUnary : Option (UnaryBehavior Await Answer Error Result) := none
  unaryStream : Option (StreamBehavior Await Answer Message Error) := none
  streamUnary : Option (UnaryBehavior Await Answer Error Result) := none
  streamStream : Option (StreamBehavior Await Answer Message Error) := none

namespace RpcMethodHandler

variable (handler : RpcMethodHandler Await Answer Message Error Result)

/-- `BEHAVIOR_FIELD`. -/
def fieldOf : Bool → Bool → BehaviorField
  | false, false => .unaryUnary
  | false, true => .unaryStream
  | true, false => .streamUnary
  | true, true => .streamStream

/-- What a field holds. -/
def get : BehaviorField →
    Option (UnaryBehavior Await Answer Error Result ⊕ StreamBehavior Await Answer Message Error)
  | .unaryUnary => handler.unaryUnary.map .inl
  | .unaryStream => handler.unaryStream.map .inr
  | .streamUnary => handler.streamUnary.map .inl
  | .streamStream => handler.streamStream.map .inr

/-- `behavior_field`. -/
def behaviorField : Option BehaviorField :=
  let field := fieldOf handler.requestStreaming handler.responseStreaming
  if (handler.get field).isSome then some field else none

/-- The behavior of a handler. -/
def behavior :
    Option (UnaryBehavior Await Answer Error Result ⊕ StreamBehavior Await Answer Message Error) :=
  handler.behaviorField.bind handler.get

end RpcMethodHandler

/-- What an interceptor puts around a behavior. -/
structure Wrapper (Await Answer Message Error Result : Type) where
  unary : UnaryBehavior Await Answer Error Result → UnaryBehavior Await Answer Error Result
  stream : StreamBehavior Await Answer Message Error → StreamBehavior Await Answer Message Error

namespace Wrapper

variable (wrapper : Wrapper Await Answer Message Error Result)

def wrap : UnaryBehavior Await Answer Error Result ⊕ StreamBehavior Await Answer Message Error →
    UnaryBehavior Await Answer Error Result ⊕ StreamBehavior Await Answer Message Error
  | .inl behavior => .inl (wrapper.unary behavior)
  | .inr behavior => .inr (wrapper.stream behavior)

/-- `handler._replace(**{field: ...})`. -/
def replace (handler : RpcMethodHandler Await Answer Message Error Result) :
    BehaviorField → RpcMethodHandler Await Answer Message Error Result
  | .unaryUnary => { handler with unaryUnary := handler.unaryUnary.map wrapper.unary }
  | .unaryStream => { handler with unaryStream := handler.unaryStream.map wrapper.stream }
  | .streamUnary => { handler with streamUnary := handler.streamUnary.map wrapper.unary }
  | .streamStream => { handler with streamStream := handler.streamStream.map wrapper.stream }

/-- `intercept_service`, on what `continuation` found. -/
def interceptService : Option (RpcMethodHandler Await Answer Message Error Result) →
    Option (RpcMethodHandler Await Answer Message Error Result)
  | none => none
  | some handler =>
      match handler.behaviorField with
      | none => some handler
      | some field => some (wrapper.replace handler field)

end Wrapper

/-! ## The interceptors -/

/-- The entry of `bound_contextvars(request_id=...)`. -/
def bindRequestId (requestId : String) (world : World) : Option String × World :=
  (world.currentRequestId, world.bind (some requestId))

/-- Its exit. -/
def unbindRequestId (saved : Option String) (_ : Except Error Result) (world : World) : World :=
  world.bind saved

/-- `RequestIdServerInterceptor`, with the id of the call. -/
def requestIdServerInterceptor (typeError : Error) (requestId : String) :
    Wrapper Await Answer Message Error Result where
  unary b :=
    { State := Option (Option String) × b.State
      start := (none, b.start)
      code := bracket (bindRequestId requestId) unbindRequestId b.code }
  stream b := .ofGenerator (none, .calling)
    (bracket (bindRequestId requestId) unbindRequestId (b.stream typeError))

/-- The start of the clock. -/
def startClock (world : World) : ℚ × World := (world.perfCounter, world)

/-- `record`. -/
def record (qualname : Error → String) (details : HandlerCallDetails) (start : ℚ)
    (outcome : Except Error Result) (world : World) : World :=
  { world with
    durations := world.durations ++
      [{ service := (splitMethod details.method).1
         method := (splitMethod details.method).2
         statusCode := statusName world.code
         errorType := match outcome with
           | .error error => some (qualname error)
           | .ok _ => none
         duration := (world.perfCounter - start) * 1000 }] }

/-- `MetricsServerInterceptor`. -/
def metricsServerInterceptor (typeError : Error) (qualname : Error → String)
    (details : HandlerCallDetails) : Wrapper Await Answer Message Error Result where
  unary b :=
    { State := Option ℚ × b.State
      start := (none, b.start)
      code := bracket startClock (record qualname details) b.code }
  stream b := .ofGenerator (none, .calling)
    (bracket startClock (record qualname details) (b.stream typeError))

/-- What `GrpcServer` is built with, of its interceptors. -/
structure GrpcServer (Await Answer Message Error Result : Type) where
  otel : List (Wrapper Await Answer Message Error Result) := []
  useOtelInterceptor : Bool := true
  useRequestIdInterceptor : Bool := true
  useMetricsInterceptor : Bool := true
  interceptors : List (Wrapper Await Answer Message Error Result) := []

namespace GrpcServer

variable (server : GrpcServer Await Answer Message Error Result) (typeError : Error)
  (qualname : Error → String) (details : HandlerCallDetails) (generated : String)

/-- `_interceptors`, in a call. -/
def chain : List (Wrapper Await Answer Message Error Result) :=
  (if server.useOtelInterceptor then server.otel else []) ++
    (if server.useRequestIdInterceptor then
      [requestIdServerInterceptor typeError (details.requestId generated)] else []) ++
    (if server.useMetricsInterceptor then
      [metricsServerInterceptor typeError qualname details] else []) ++
    server.interceptors

/-- The handler of a call: the first interceptor is asked first, and its continuation is the rest
of the chain. -/
def lookup (found : Option (RpcMethodHandler Await Answer Message Error Result)) :
    Option (RpcMethodHandler Await Answer Message Error Result) :=
  (server.chain typeError qualname details generated).foldr Wrapper.interceptService found

end GrpcServer

/-! ## The handler that serves a call -/

section Lookup

variable (wrapper : Wrapper Await Answer Message Error Result)
  (handler : RpcMethodHandler Await Answer Message Error Result)

theorem get_replace (field other : BehaviorField) :
    (wrapper.replace handler field).get other =
      if other = field then (handler.get other).map wrapper.wrap else handler.get other := by
  cases field <;> cases other <;>
    simp only [Wrapper.replace, RpcMethodHandler.get, Option.map_map, if_true, reduceCtorEq,
      if_false] <;>
    rfl

theorem kind_replace (field : BehaviorField) :
    (wrapper.replace handler field).requestStreaming = handler.requestStreaming ∧
      (wrapper.replace handler field).responseStreaming = handler.responseStreaming := by
  cases field <;> exact ⟨rfl, rfl⟩

/-- An interceptor wraps the behavior of the handler and leaves the rest of it alone. -/
theorem interceptService_some :
    ∃ handler', wrapper.interceptService (some handler) = some handler' ∧
      handler'.behavior = handler.behavior.map wrapper.wrap ∧
      handler'.requestStreaming = handler.requestStreaming ∧
      handler'.responseStreaming = handler.responseStreaming ∧
      ∀ field, some field ≠ handler.behaviorField → handler'.get field = handler.get field := by
  rw [Wrapper.interceptService]
  cases there : handler.behaviorField with
  | none =>
      refine ⟨handler, rfl, ?_, rfl, rfl, fun _ _ => rfl⟩
      rw [RpcMethodHandler.behavior, there]
      rfl
  | some field =>
      obtain ⟨requests, responses⟩ := kind_replace wrapper handler field
      refine ⟨_, rfl, ?_, requests, responses, fun other apart => ?_⟩
      · rw [RpcMethodHandler.behaviorField] at there
        obtain ⟨held, same⟩ := Option.ite_none_right_eq_some.mp there
        obtain rfl := Option.some.inj same
        rw [RpcMethodHandler.behavior, RpcMethodHandler.behavior, RpcMethodHandler.behaviorField,
          RpcMethodHandler.behaviorField, requests, responses, get_replace, if_pos rfl,
          Option.isSome_map, if_pos held, Option.bind_some, Option.bind_some, get_replace,
          if_pos rfl]
      · rw [get_replace, if_neg fun same => apart (congrArg some same)]

/-- **The behavior that serves a call** is the one that was found, wrapped by the chain, the first
interceptor outermost. -/
theorem behavior_lookup (chain : List (Wrapper Await Answer Message Error Result)) :
    ∃ handler', chain.foldr Wrapper.interceptService (some handler) = some handler' ∧
      handler'.behavior = handler.behavior.map fun behavior => chain.foldr Wrapper.wrap behavior := by
  induction chain with
  | nil => exact ⟨handler, rfl, Option.map_id'.symm⟩
  | cons wrapper chain ih =>
      obtain ⟨found, there, behaves⟩ := ih
      obtain ⟨handler', wrapped, around, -⟩ := interceptService_some wrapper found
      refine ⟨handler', ?_, ?_⟩
      · rw [List.foldr_cons, there, wrapped]
      · rw [around, behaves, Option.map_map]
        rfl

end Lookup

end PyCommon.Grpc
