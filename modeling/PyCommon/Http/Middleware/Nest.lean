import PyCommon.Http.Middleware.Layers
import PyCommon.Lib.HeaderLists
import PyCommon.Lib.Numerals
import PyCommon.Lib.Runs
import PyCommon.Problem

/-!
# Request context, timeout and body limit around an application

The three middlewares that answer in the application's place, each as a layer over the
next one: `BodySizeLimitMiddleware` refuses a declared length and counts the chunks that
the application receives, `TimeoutMiddleware` runs what it wraps inside a cancel scope
whose deadline is lifted by the start of a response, and `RequestContextMiddleware`
turns an unhandled exception into a response and puts the request id on every start.

One request is a system of labels (`Nest.step`): the deadline expires while the scope is
open, and the pending await comes back. A cancellation comes back from an await inside
the scope, at any await after the deadline expired. What the application handed over and
what reached the server is recorded.
-/

set_option autoImplicit false

namespace PyCommon.Middleware

open HeaderLists (put)

/-! ## The body limit -/

structure BodySizeLimitMiddleware where
  maxBytes : ℕ := 1024 * 1024
  excludePaths : List String := []
  positive : 0 < maxBytes := by decide

/-- `int(value)` of a header value. The interpreter reads at most 4300 digits. -/
def intOfBytes (raw : Bytes) : Option ℤ := Numerals.parse 4300 (decodeLatin1 raw).toList

/-- `_content_length`. A malformed value counts as none. -/
def contentLength (scope : Scope) : Option ℤ :=
  (scope.headers.find? fun pair => pair.1 = encode "content-length").bind fun pair =>
    intOfBytes pair.2

/-- An application behind `counting_receive`: what it has received so far, or `none`
where nothing is counted. -/
structure AppCall where
  received : Option ℕ
  app : App

/-- What the layers need to know of a request besides its connection: the request id that
is bound to the context, and how a problem is rendered. At most one problem is rendered
in a request, so one reading of the clock will do. -/
structure Context where
  requestId : Bytes
  rendering : Rendering

namespace BodySizeLimitMiddleware

/-- `counting_receive` on a message: the count after it, and what the application gets. -/
def countingReceive (limit : BodySizeLimitMiddleware) (received : ℕ) :
    ReceiveMessage → ℕ × Except PyExc ReceiveMessage
  | .request body moreBody =>
      let received := received + body.length
      if limit.maxBytes < received then (received, .error .bodyTooLarge)
      else (received, .ok (.request body moreBody))
  | .disconnect => (received, .ok .disconnect)

/-- The application behind `counting_receive` after its await has come back. -/
def move (limit : BodySizeLimitMiddleware) (call : AppCall) (a : Answer) : Option AppCall :=
  match call.received, call.app, a with
  | some received, .receive k, .received message =>
      let counted := limit.countingReceive received message
      some ⟨some counted.1, k counted.2⟩
  | received, app, a => (app.answer a).map fun app => ⟨received, app⟩

/-- `_reject`. -/
def reject (limit : BodySizeLimitMiddleware) (ctx : Context) (scope : Scope) : List SendMessage :=
  problemResponse ctx.rendering scope .payloadTooLarge (by decide) "Content Too Large" 413
    ("Request body exceeds the " ++ toString limit.maxBytes ++ " byte limit")
    (some (decodeLatin1 ctx.requestId))

/-- `except BodyTooLarge`. -/
def handler (limit : BodySizeLimitMiddleware) (ctx : Context) (scope : Scope) (started : Bool)
    (e : PyExc) : App :=
  if e = .bodyTooLarge then
    if started then .done else .sending (limit.reject ctx scope)
  else .raise e

/-- `__call__`, up to the first await. -/
def call (limit : BodySizeLimitMiddleware) (ctx : Context) (scope : Scope) (app : App) :
    Layer AppCall :=
  if scope.type ≠ .http ∨ scope.path ∈ limit.excludePaths then ⟨.passing, ⟨none, app⟩⟩
  else if ∃ declared ∈ contentLength scope, (limit.maxBytes : ℤ) < declared then
    ⟨.finishing (.sending (limit.reject ctx scope)), ⟨some 0, app⟩⟩
  else Layer.settle AppCall.app (limit.handler ctx scope) false ⟨some 0, app⟩

end BodySizeLimitMiddleware

/-! ## The timeout -/

/-- The seconds only set the time of the deadline; the text of `f"{seconds:g}"` is told
to the client. -/
structure TimeoutMiddleware where
  seconds : String := "30"
  excludePaths : List String := ["/health", "/health/live", "/health/ready", "/metrics"]

/-- The call that the timeout wraps. -/
abbrev BodyCall := Layer AppCall

def BodyCall.current : BodyCall → App := Layer.current AppCall.app

namespace TimeoutMiddleware

/-- `_send_timeout`. -/
def sendTimeout (timeout : TimeoutMiddleware) (ctx : Context) (scope : Scope) : List SendMessage :=
  problemResponse ctx.rendering scope .timeout (by decide) "Gateway Timeout" 504
    ("The request did not complete within " ++ timeout.seconds ++ " seconds")
    (some (decodeLatin1 ctx.requestId))

/-- The end of the cancel scope: a `CancelledError` is caught once the scope has been
cancelled. -/
def handler (timeout : TimeoutMiddleware) (ctx : Context) (scope : Scope) (cancelCalled : Bool)
    (started : Bool) (e : PyExc) : App :=
  if cancelCalled ∧ e = .cancelledError then
    if started then .done else .sending (timeout.sendTimeout ctx scope)
  else .raise e

/-- `__call__`, up to the first await. -/
def call (timeout : TimeoutMiddleware) (ctx : Context) (scope : Scope) (inner : BodyCall) :
    Layer BodyCall :=
  if scope.type ≠ .http ∨ scope.path ∈ timeout.excludePaths then ⟨.passing, inner⟩
  else Layer.settle BodyCall.current (timeout.handler ctx scope false) false inner

end TimeoutMiddleware

/-! ## The request context -/

/-- The header name is in the form that headers are compared by,
`header_name.lower().encode("latin-1")`. -/
structure RequestContextMiddleware where
  headerName : Bytes := encode "x-request-id"
  handleExceptions : Bool := true

/-- The call that the request context wraps. -/
abbrev TimeoutCall := Layer BodyCall

def TimeoutCall.current : TimeoutCall → App := Layer.current BodyCall.current

namespace RequestContextMiddleware

/-- The id of a request, in byte form. A header is decoded as latin-1 and encoded back, which
loses nothing. -/
def requestId (context : RequestContextMiddleware) (scope : Scope) (generated : Bytes) : Bytes :=
  requestIdOf [] context.headerName scope.headers generated

/-- The message as `send_wrapper` forwards it. The item of `MutableHeaders` is set. -/
def sendWrapper (context : RequestContextMiddleware) (ctx : Context) : SendMessage → SendMessage
  | .start status headers => .start status (put context.headerName ctx.requestId headers)
  | message => message

/-- `unhandled_problem_response`. -/
def unhandled (ctx : Context) (scope : Scope) : List SendMessage :=
  problemResponse ctx.rendering scope .server (by decide) "Server Error" 500
    "An unexpected error occurred" (some (decodeLatin1 ctx.requestId))

/-- `except Exception`. -/
def handler (context : RequestContextMiddleware) (ctx : Context) (scope : Scope)
    (responseStarted : Bool) (e : PyExc) : App :=
  if e.isException then
    if responseStarted ∨ context.handleExceptions = false then .raise e
    else .sending ((unhandled ctx scope).map (context.sendWrapper ctx))
  else .raise e

/-- `__call__`, up to the first await. -/
def call (context : RequestContextMiddleware) (ctx : Context) (scope : Scope)
    (inner : TimeoutCall) : Layer TimeoutCall :=
  if scope.type ≠ .http then ⟨.passing, inner⟩
  else Layer.settle TimeoutCall.current (context.handler ctx scope) false inner

end RequestContextMiddleware

/-! ## One request -/

/-- The nest with handling of exceptions on, and the request that it serves. -/
structure Nest where
  context : RequestContextMiddleware := {}
  timeout : TimeoutMiddleware := {}
  limit : BodySizeLimitMiddleware := {}
  scope : Scope
  generated : Bytes
  rendering : Rendering
  app : App
  handles : context.handleExceptions = true := by rfl
  http : scope.type = .http := by rfl

/-- A message that reached the server, and whether it is the application's own. -/
structure Delivery where
  own : Bool
  message : SendMessage
  deriving DecidableEq

/-- The state of a request. `handed` are the messages whose `send` by the application has
come back, with or without a cancellation. -/
structure State where
  call : Layer TimeoutCall
  cancelCalled : Bool := false
  handed : List SendMessage := []
  reached : List Delivery := []

/-- The deadline of the cancel scope expires, or the pending await comes back. -/
inductive Label where
  | expire
  | answer (a : Answer)
  deriving DecidableEq

namespace State

/-- What the request is waiting for, or how it has ended. -/
def current (s : State) : App := Layer.current TimeoutCall.current s.call

/-- The application, as far as it has got. -/
def app (s : State) : App := s.call.call.call.call.app

/-- No layer has taken over from the application. -/
def running (s : State) : Bool :=
  match s.call.mode, s.call.call.mode, s.call.call.call.mode with
  | .finishing _, _, _ => false
  | _, .finishing _, _ => false
  | _, _, .finishing _ => false
  | _, _, _ => true

/-- The flag of the timeout, while its cancel scope is open. -/
def openScope (s : State) : Option Bool :=
  match s.call.mode, s.call.call.mode with
  | .finishing _, _ => none
  | _, .wrapping started => some started
  | _, _ => none

end State

namespace Nest

variable (nest : Nest)

def ctx : Context := ⟨nest.context.requestId nest.scope nest.generated, nest.rendering⟩

/-- The request as it arrives, up to its first await. -/
def start : State where
  call := nest.context.call nest.ctx nest.scope (nest.timeout.call nest.ctx nest.scope
    (nest.limit.call nest.ctx nest.scope nest.app))

def moveBody : BodyCall → Answer → Option BodyCall :=
  Layer.answer AppCall.app (nest.limit.handler nest.ctx nest.scope) nest.limit.move

def moveTimeout (cancelCalled : Bool) : TimeoutCall → Answer → Option TimeoutCall :=
  Layer.answer BodyCall.current (nest.timeout.handler nest.ctx nest.scope cancelCalled)
    nest.moveBody

def move (cancelCalled : Bool) : Layer TimeoutCall → Answer → Option (Layer TimeoutCall) :=
  Layer.answer TimeoutCall.current (nest.context.handler nest.ctx nest.scope)
    (nest.moveTimeout cancelCalled)

/-- The message as it leaves the nest. A response of the request context has its header
already. -/
def outgoing (s : State) (message : SendMessage) : SendMessage :=
  match s.call.mode with
  | .wrapping _ => nest.context.sendWrapper nest.ctx message
  | _ => message

/-- The pending message has gone out by the time the await comes back. -/
def forwarded : Answer → Bool
  | .sent => true
  | .cancelled forwarded => forwarded
  | _ => false

/-- What reached the server when the await comes back. -/
def deliver (s : State) (a : Answer) : List Delivery :=
  match s.current.pending with
  | some message => if forwarded a then [⟨s.running, nest.outgoing s message⟩] else []
  | none => []

/-- What the application has handed over when its await comes back. -/
def hand (s : State) : List SendMessage :=
  if s.running then s.app.pending.toList else []

/-- One label. The deadline is lifted once a start message has been handed on, and only
an expired scope cancels. -/
def step (s : State) : Label → Option State
  | .expire =>
      if s.openScope = some false ∧ s.cancelCalled = false then some { s with cancelCalled := true }
      else none
  | .answer a =>
      if a.isCancelled ∧ ¬ (s.openScope.isSome ∧ s.cancelCalled) then none
      else (nest.move s.cancelCalled s.call a).map fun call =>
        { s with call, handed := s.handed ++ hand s, reached := s.reached ++ nest.deliver s a }

end Nest

end PyCommon.Middleware
