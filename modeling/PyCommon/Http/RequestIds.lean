import PyCommon.Http.Idempotency.Transparency
import PyCommon.Http.Middleware.Nest
import PyCommon.Http.Stack

/-!
# Request ids

Every request that comes through the standard stack is given an id by the request
context, which binds it in two places: the state of the connection and the context
variables of the logger. `_request_id` reads the one and then the other,
`current_request_id` only the second, and inside a request they agree
(`requestId_bind`). The response goes out with the id in its `X-Request-ID` header,
and a body may carry it as `request_id`.

The stack is the request context around the timeout, the body limit, and the
idempotency layer, of which the inner three may be absent. The layers keep what the
inner ones send, except that the request context stamps its header on a start. So a
request is a call of the idempotency layer, what this call sends, and what the outer
layers answer when it raises (`Service.rescued`). Header and body of every response
agree in every run exactly when no request is handed a record whose body carries the
id of another request (`request_ids_agree_iff`); a retry with an id of its own that is
answered from the record of the first attempt is handed such a body
(`replay_carries_first_id`).
-/

set_option autoImplicit false

namespace PyCommon.RequestIds

open HeaderLists (put values values_put)
open StepSystem Idempotency Middleware

/-! ## What is bound -/

/-- Where code that runs inside a request finds its id. -/
structure Bindings where
  scope : Scope
  contextvars : Option String

def entriesOf : StateValue → StateEntries
  | .dict entries => entries
  | .object entries => entries

/-- `current_request_id`. -/
def Bindings.currentRequestId (bindings : Bindings) : Option String := bindings.contextvars

/-- `_request_id`: the state of the connection, or else the logging context. -/
def Bindings.requestId (bindings : Bindings) : Option String :=
  match bindings.scope.state.bind fun value => (entriesOf value).requestId with
  | some requestId => some requestId
  | none => bindings.currentRequestId

/-- What `RequestContextMiddleware` leaves behind for what it wraps. -/
def bind (scope : Scope) (requestId : String) : Bindings :=
  ⟨Stack.setRequestId scope requestId, some requestId⟩

/-- The two readers agree inside the request context. -/
theorem requestId_bind (scope : Scope) (requestId : String) :
    (bind scope requestId).requestId = some requestId ∧
      (bind scope requestId).currentRequestId = some requestId := by
  refine ⟨?_, rfl⟩
  rw [Bindings.requestId, bind, Stack.setRequestId]
  cases scope.state with
  | none => rfl
  | some value => cases value <;> rfl

/-! ## The stack -/

/-- The layers of a service, and what a client reads as the `request_id` of a body. -/
structure Service where
  context : RequestContextMiddleware := {}
  timeout : Option TimeoutMiddleware := some {}
  limit : Option BodySizeLimitMiddleware := some {}
  idempotency : Option IdempotencyMiddleware := none
  rendering : Rendering
  carried : Bytes → Option String
  reads : ∀ detail, carried (rendering.render detail) = detail.requestId

/-- A request as the server hands it over, the id that would be generated for it, and the
application that serves it. -/
structure Arrival where
  scope : Scope
  stream : List ReceiveMessage := []
  generated : Bytes
  app : App
  http : scope.type = .http := by rfl

/-- What the request context hands on. -/
def Arrival.request (arrival : Arrival) (requestId : Bytes) : Request :=
  let bindings := bind arrival.scope (decodeLatin1 requestId)
  { scope := bindings.scope, stream := arrival.stream, app := arrival.app,
    requestId := bindings.currentRequestId }

/-- The messages of a response that is sent without an interruption. -/
def messagesOf : App → List SendMessage
  | .send message k => message :: messagesOf (k (.ok ()))
  | _ => []

/-! ## Histories of requests -/

/-- The system of the idempotency layer, the id of each request that has arrived, and
what its client has received. -/
structure History where
  sys : Sys := {}
  ids : ℕ → Option Bytes := fun _ => none
  received : ℕ → List SendMessage := fun _ => []

inductive Event where
  | arrive (id : ℕ) (arrival : Arrival)
  | elapse (ms : ℕ)
  | timeout (id : ℕ)
  | resume (id : ℕ) (fault : Option PyExc)
  | redis (id : ℕ)
  | late (id : ℕ)

/-- Send a client these messages. -/
def History.deliver (s : History) (id : ℕ) (messages : List SendMessage) : History :=
  { s with received := Function.update s.received id (s.received id ++ messages) }

theorem received_deliver_self (s : History) (id : ℕ) (messages : List SendMessage) :
    (s.deliver id messages).received id = s.received id ++ messages := Function.update_self ..

theorem received_deliver_of_ne {s : History} {id other : ℕ} {messages : List SendMessage}
    (different : other ≠ id) : (s.deliver id messages).received other = s.received other :=
  Function.update_of_ne different ..

/-! ## The layers -/

namespace Service

variable (service : Service)

/-- The idempotency layer. One that handles no method is the same as none. -/
def cfg : IdempotencyMiddleware := service.idempotency.getD { methods := [] }

def ctx (requestId : Bytes) : Context := ⟨requestId, service.rendering⟩

/-- `send_wrapper` of the request context on a sequence of messages. -/
def stamped (requestId : Bytes) (messages : List SendMessage) : List SendMessage :=
  messages.map (service.context.sendWrapper (service.ctx requestId))

/-- The body limit refuses the declared length. -/
def refuses (scope : Scope) (limit : BodySizeLimitMiddleware) : Bool :=
  scope.path ∉ limit.excludePaths ∧
    ∃ declared ∈ contentLength scope, (limit.maxBytes : ℤ) < declared

def limitHandler (requestId : Bytes) (p : Proc) (e : PyExc) : App :=
  match service.limit with
  | some limit =>
      if p.ticket.scope.path ∈ limit.excludePaths then .raise e
      else limit.handler (service.ctx requestId) p.ticket.scope p.started e
  | none => .raise e

def timeoutHandler (requestId : Bytes) (p : Proc) (e : PyExc) : App :=
  match service.timeout with
  | some timeout =>
      if p.ticket.scope.path ∈ timeout.excludePaths then .raise e
      else timeout.handler (service.ctx requestId) p.ticket.scope p.timedOut p.started e
  | none => .raise e

/-- What the outer layers answer when the call of the idempotency layer raises. -/
def rescued (requestId : Bytes) (p : Proc) (e : PyExc) : List SendMessage :=
  match service.limitHandler requestId p e with
  | .raise e =>
      match service.timeoutHandler requestId p e with
      | .raise e => messagesOf
          (service.context.handler (service.ctx requestId) p.ticket.scope p.started e)
      | answer => service.stamped requestId (messagesOf answer)
  | answer => service.stamped requestId (messagesOf answer)

/-- What a client receives on account of how a call has ended. -/
def answered (requestId : Bytes) (p : Proc) : List SendMessage :=
  match p.phase with
  | .ended (.problem detail) => service.stamped requestId
      (jsonResponse detail.status (service.rendering.render detail) "application/problem+json")
  | .ended (.replayed record _) =>
      match replay record with
      | .ok messages => service.stamped requestId messages
      | .error e => service.rescued requestId p e
  | .ended (.raised e) => service.rescued requestId p e
  | _ => []

/-- The message of the application that a call lets through. -/
def passes (p : Proc) : Option SendMessage :=
  match p.phase with
  | .running => p.app.pending.bind fun message => (p.forward service.cfg message).toOption
  | .unrecorded => p.app.pending
  | _ => none

/-! ### Steps of the stack -/

variable (sha256 : Bytes → String)

/-- A request that has arrived is refused by the body limit or goes on to the idempotency
layer, which answers at once only if its header cannot be decoded. -/
def arrive (s : History) (id : ℕ) (arrival : Arrival) : History :=
  let requestId := service.context.requestId arrival.scope arrival.generated
  let bound := { s with ids := Function.update s.ids id (some requestId) }
  match service.limit.filter (refuses arrival.scope) with
  | some limit => bound.deliver id
      (service.stamped requestId (limit.reject (service.ctx requestId) arrival.scope))
  | none =>
      let p := (arrival.request requestId).begin service.cfg
      { bound.deliver id (service.answered requestId p) with sys := s.sys.put id p }

/-- What the client of a request receives when the request goes on. -/
def emits (s : History) (sys : Sys) (id : ℕ) : List SendMessage :=
  match s.ids id, s.sys.procs id, sys.procs id with
  | some requestId, some p, some q =>
      service.stamped requestId (service.passes p).toList ++ service.answered requestId q
  | _, _, _ => []

def step (s : History) : Event → Option History
  | .arrive id arrival =>
      match s.ids id with
      | none => some (service.arrive s id arrival)
      | some _ => none
  | .elapse ms => (Idempotency.step service.cfg sha256 s.sys (.elapse ms)).map fun sys =>
      { s with sys }
  | .timeout id => (Idempotency.step service.cfg sha256 s.sys (.timeout id)).map fun sys =>
      { s with sys }
  | .redis id => (Idempotency.step service.cfg sha256 s.sys (.redis id)).map fun sys =>
      { s with sys }
  | .late id => (Idempotency.step service.cfg sha256 s.sys (.late id)).map fun sys =>
      { s with sys }
  | .resume id fault => (Idempotency.step service.cfg sha256 s.sys (.resume id fault)).map
      fun sys => { s.deliver id (service.emits s sys id) with sys }

end Service

/-! ## Agreement -/

/-- The headers and the body of a response after one more message. -/
def extend : Option (List (Bytes × Bytes) × Bytes) → SendMessage →
    Option (List (Bytes × Bytes) × Bytes)
  | _, .start _ headers => some (headers, [])
  | some (headers, body), .body chunk _ => some (headers, body ++ chunk)
  | response, _ => response

/-- The response a client has received: the headers of the last start, and the body so far. -/
def response (messages : List SendMessage) : Option (List (Bytes × Bytes) × Bytes) :=
  messages.foldl extend none

/-- The values of the `X-Request-ID` header. -/
def Service.headerIds (service : Service) (headers : List (Bytes × Bytes)) : List String :=
  (values service.context.headerName headers).map decodeLatin1

/-- Every response whose body carries a request id has that id in its header, once. -/
def Service.Agrees (service : Service) (s : History) : Prop :=
  ∀ id headers body, response (s.received id) = some (headers, body) →
    ∀ requestId ∈ service.carried body, service.headerIds headers = [requestId]

/-- Where the code of a request finds its id. -/
def bindingsOf (p : Proc) : Bindings := ⟨p.ticket.scope, p.requestId⟩

/-- A request id in the body that the application sends came from one of the library's
readers. -/
def Service.TakesLibraryIds (service : Service) (s : History) : Event → Prop
  | .resume id _ => ∀ p ∈ s.sys.procs id, ∀ message ∈ service.passes p,
      ∀ sent ∈ response (s.received id ++ [message]), ∀ requestId ∈ service.carried sent.2,
        (bindingsOf p).requestId = some requestId ∨
          (bindingsOf p).currentRequestId = some requestId
  | _ => True

/-- The done record that a `GET` has found. -/
def foundRecord : Phase → Option DoneRecord
  | .getReply (some ⟨.done record, _⟩) => some record
  | _ => none

/-- The request is not about to be answered from a record whose body carries an id that
is not its own. -/
def Service.NoForeignReplay (service : Service) (sha256 : Bytes → String) (s : History) :
    Event → Prop
  | .resume id none => ∀ p ∈ s.sys.procs id, ∀ record ∈ foundRecord p.phase,
      record.fingerprint = p.ticket.fingerprint sha256 →
        ∀ body ∈ (encodeLatin1 record.body).toOption,
          ∀ requestId ∈ service.carried body, p.requestId = some requestId
  | _ => True

variable {service : Service} {sha256 : Bytes → String}

theorem getReply_of_foundRecord {phase : Phase} {record : DoneRecord}
    (found : record ∈ foundRecord phase) :
    ∃ writer, phase = .getReply (some ⟨.done record, writer⟩) := by
  unfold foundRecord at found
  split at found
  · obtain rfl := Option.some.inj found
    exact ⟨_, rfl⟩
  · cases found

theorem ok_of_mem_toOption {α : Type} {result : Except PyExc α} {value : α}
    (there : value ∈ result.toOption) : result = .ok value := by
  cases result with
  | error e => cases there
  | ok other => exact congrArg Except.ok (Option.some.inj there)

/-! ### The header -/

/-- A stamped start has the header once. -/
theorem headerIds_put (requestId : Bytes) (headers : List (Bytes × Bytes)) :
    service.headerIds (put service.context.headerName requestId headers) =
      [decodeLatin1 requestId] := by
  rw [Service.headerIds, values_put]
  rfl

/-! ### Responses -/

theorem response_append (first later : List SendMessage) :
    response (first ++ later) = later.foldl extend (response first) := List.foldl_append

/-- The messages are a whole response with the id in its header, and in its body if there
is one; or nothing. -/
def Service.Speaks (service : Service) (requestId : Bytes) (messages : List SendMessage) : Prop :=
  messages = [] ∨ ∃ headers body, (∀ before, messages.foldl extend before = some (headers, body)) ∧
    service.headerIds headers = [decodeLatin1 requestId] ∧
      ∀ carried ∈ service.carried body, carried = decodeLatin1 requestId

/-- A response of two messages speaks for the request if its body does. -/
theorem speaks_stamped {requestId body : Bytes} {status : ℤ} {headers : List (Bytes × Bytes)}
    (own : ∀ carried ∈ service.carried body, carried = decodeLatin1 requestId) :
    service.Speaks requestId
      (service.stamped requestId [.start status headers, .body body false]) :=
  .inr ⟨_, body, fun _ => rfl, headerIds_put requestId headers, own⟩

/-- A problem with the id of the request speaks for it. -/
theorem speaks_problem {requestId : Bytes} {detail : ProblemDetail} {status : ℤ}
    {mediaType : String} (own : detail.requestId = some (decodeLatin1 requestId)) :
    service.Speaks requestId (service.stamped requestId
      (jsonResponse status (service.rendering.render detail) mediaType)) := by
  refine speaks_stamped ?_
  intro carried found
  rw [service.reads, own] at found
  exact (Option.some.inj found).symm

theorem messagesOf_sending (messages : List SendMessage) :
    messagesOf (.sending messages) = messages := by
  induction messages with
  | nil => rfl
  | cons message rest ih => exact congrArg (message :: ·) ih

/-- A layer lets the exception through, answers nothing, or answers with a problem that
carries the id of the request. -/
def Service.AnswersOwn (service : Service) (requestId : Bytes) (e : PyExc) (answer : App) : Prop :=
  answer = .done ∨ answer = .raise e ∨
    ∃ status detail mediaType, detail.requestId = some (decodeLatin1 requestId) ∧
      answer = .sending (jsonResponse status (service.rendering.render detail) mediaType)

/-- A layer answers an exception of its own with a problem, unless a response is under way. -/
theorem answersOwn_of_ite {requestId : Bytes} {e : PyExc} {mine started : Prop} [Decidable mine]
    [Decidable started] {status : ℤ} {detail : ProblemDetail} {mediaType : String}
    (own : detail.requestId = some (decodeLatin1 requestId)) :
    service.AnswersOwn requestId e
      (if mine then
        if started then .done
        else .sending (jsonResponse status (service.rendering.render detail) mediaType)
      else .raise e) := by
  split
  · split
    · exact .inl rfl
    · exact .inr (.inr ⟨status, detail, mediaType, own, rfl⟩)
  · exact .inr (.inl rfl)

theorem limitHandler_answersOwn (requestId : Bytes) (p : Proc) (e : PyExc) :
    service.AnswersOwn requestId e (service.limitHandler requestId p e) := by
  unfold Service.limitHandler
  cases service.limit with
  | none => exact .inr (.inl rfl)
  | some limit =>
      dsimp only
      split
      · exact .inr (.inl rfl)
      · exact answersOwn_of_ite rfl

theorem timeoutHandler_answersOwn (requestId : Bytes) (p : Proc) (e : PyExc) :
    service.AnswersOwn requestId e (service.timeoutHandler requestId p e) := by
  unfold Service.timeoutHandler
  cases service.timeout with
  | none => exact .inr (.inl rfl)
  | some timeout =>
      dsimp only
      split
      · exact .inr (.inl rfl)
      · exact answersOwn_of_ite rfl

theorem speaks_sending {requestId : Bytes} {detail : ProblemDetail} {status : ℤ}
    {mediaType : String} (own : detail.requestId = some (decodeLatin1 requestId)) :
    service.Speaks requestId (service.stamped requestId (messagesOf
      (.sending (jsonResponse status (service.rendering.render detail) mediaType)))) := by
  rw [messagesOf_sending]
  exact speaks_problem own

/-- What the outer layers answer speaks for the request. -/
theorem speaks_rescued (requestId : Bytes) (p : Proc) (e : PyExc) :
    service.Speaks requestId (service.rescued requestId p e) := by
  have limiting : service.AnswersOwn requestId e (service.limitHandler requestId p e) :=
    limitHandler_answersOwn ..
  have timing : service.AnswersOwn requestId e (service.timeoutHandler requestId p e) :=
    timeoutHandler_answersOwn ..
  unfold Service.rescued
  rcases limiting with limited | limited | ⟨status, detail, mediaType, own, limited⟩
  · rw [limited]
    exact .inl rfl
  · rw [limited]
    dsimp only
    rcases timing with timed | timed | ⟨status, detail, mediaType, own, timed⟩
    · rw [timed]
      exact .inl rfl
    · rw [timed]
      dsimp only
      unfold RequestContextMiddleware.handler
      split
      · split
        · exact .inl rfl
        · exact speaks_sending rfl
      · exact .inl rfl
    · rw [timed]
      exact speaks_sending own
  · rw [limited]
    exact speaks_sending own

/-! ### Calls of the idempotency layer -/

theorem requestId_of_await {cfg : IdempotencyMiddleware} {recorded : Bool} {fault : Option PyExc}
    {p q : Proc} (taken : p.await cfg recorded fault = some q) : q.requestId = p.requestId := by
  unfold Proc.await at taken
  split at taken
  · cases taken
  · cases taken
  · split at taken
    · obtain rfl := Option.some.inj taken
      rfl
    · obtain ⟨_, _, rfl⟩ := Option.map_eq_some_iff.mp taken
      rfl
  · obtain rfl := Option.some.inj taken
    rfl
  · split at taken
    · obtain rfl := Option.some.inj taken
      unfold Proc.sendRecorded
      split <;> rfl
    · obtain rfl := Option.some.inj taken
      rfl

theorem requestId_of_resumes {cfg : IdempotencyMiddleware} {now : ℕ} {fault : Option PyExc}
    {p q : Proc} (moves : p.Resumes cfg sha256 now fault q) : q.requestId = p.requestId := by
  cases moves with
  | awaited here taken => exact requestId_of_await taken
  | unrecorded here taken => exact requestId_of_await taken
  | _ => rfl

theorem ofResult_ne_problem (result : Except PyExc Unit) (detail : ProblemDetail) :
    Ending.ofResult result ≠ .problem detail := by
  intro same
  cases result <;> cases same

theorem swallow_ne_problem {ending : Ending} {detail : ProblemDetail}
    (other : ending ≠ .problem detail) (fault : Option PyExc) :
    swallow ending fault ≠ .problem detail := by
  unfold swallow
  split
  · exact other
  · exact other
  · intro same
    cases same

/-- A call that answers with a problem puts its own id in it. -/
theorem problem_of_resumes {cfg : IdempotencyMiddleware} {now : ℕ} {fault : Option PyExc}
    {p q : Proc} {detail : ProblemDetail} (moves : p.Resumes cfg sha256 now fault q)
    (here : q.phase = .ended (.problem detail)) : detail.requestId = p.requestId := by
  cases moves with
  | present reply =>
      have ends := Phase.ended.inj here
      unfold Proc.handleExisting at ends
      split at ends
      · obtain rfl := Ending.problem.inj ends
        rfl
      · split at ends
        · obtain rfl := Ending.problem.inj ends
          rfl
        · cases ends
  | @claimFailed e reply =>
      have ends : p.claimFailed cfg now e = .ended (.problem detail) := here
      unfold Proc.claimFailed at ends
      split at ends
      · split at ends
        · cases ends
        · obtain rfl := Ending.problem.inj (Phase.ended.inj ends)
          rfl
      · cases ends
  | awaited running taken => rw [(await_frame taken).1, running] at here; cases here
  | unrecorded direct taken => rw [(await_frame taken).1, direct] at here; cases here
  | @appEnded result running atEnd =>
      rcases appEnded_cases sha256 p result with ⟨_, led, _⟩ | ⟨led, _⟩ | ⟨led, _⟩
      all_goals cases led.symm.trans here
  | deleteFailed =>
      exact absurd (Phase.ended.inj here) (swallow_ne_problem (ofResult_ne_problem _ _) _)
  | deleted =>
      exact absurd (Phase.ended.inj here) (swallow_ne_problem (ofResult_ne_problem _ _) _)
  | storeFailed =>
      exact absurd (Phase.ended.inj here) (swallow_ne_problem (ofResult_ne_problem (.ok ()) _) _)
  | stored =>
      exact absurd (Phase.ended.inj here) (swallow_ne_problem (ofResult_ne_problem (.ok ()) _) _)
  | unrecordedEnded => exact absurd (Phase.ended.inj here) (ofResult_ne_problem _ _)
  | _ => cases here

/-! ### The invariant -/

/-- What the client of a request has received agrees with the id of the request. -/
def Service.Tells (service : Service) (requestId : Bytes) (messages : List SendMessage) : Prop :=
  ∀ headers body, response messages = some (headers, body) →
    service.headerIds headers = [decodeLatin1 requestId] ∧
      ∀ carried ∈ service.carried body, carried = decodeLatin1 requestId

/-- The readers of the library give the id of the request inside its call. -/
structure Bound (requestId : Bytes) (p : Proc) : Prop where
  contextvars : (bindingsOf p).currentRequestId = some (decodeLatin1 requestId)
  state : (bindingsOf p).requestId = some (decodeLatin1 requestId)

/-- Every call has the id of its request, and what has been received agrees with it. -/
structure Service.Consistent (service : Service) (s : History) : Prop where
  bound : ∀ id p, s.sys.procs id = some p → ∃ requestId, s.ids id = some requestId ∧
    Bound requestId p
  silent : ∀ id, s.ids id = none → s.received id = []
  tells : ∀ id requestId, s.ids id = some requestId → service.Tells requestId (s.received id)

theorem Bound.congr {requestId : Bytes} {p q : Proc} (bound : Bound requestId p)
    (same : bindingsOf q = bindingsOf p) : Bound requestId q := by
  refine ⟨?_, ?_⟩
  · rw [same]
    exact bound.contextvars
  · rw [same]
    exact bound.state

theorem bindingsOf_of_resumes {cfg : IdempotencyMiddleware} {now : ℕ} {fault : Option PyExc}
    {p q : Proc} (moves : p.Resumes cfg sha256 now fault q) : bindingsOf q = bindingsOf p := by
  rw [bindingsOf, bindingsOf, requestId_of_resumes moves, (scope_key_of_resumes moves).1]

theorem tells_nil (requestId : Bytes) : service.Tells requestId [] := by
  intro headers body received
  cases received

/-- A whole response of its own agrees with the request, whatever came before. -/
theorem Service.Tells.append {requestId : Bytes} {before messages : List SendMessage}
    (tells : service.Tells requestId before) (speaks : service.Speaks requestId messages) :
    service.Tells requestId (before ++ messages) := by
  rcases speaks with rfl | ⟨headers, body, whole, header, own⟩
  · rw [List.append_nil]
    exact tells
  · intro headers' body' received
    rw [response_append, whole] at received
    obtain ⟨rfl, rfl⟩ := Prod.mk.inj (Option.some.inj received)
    exact ⟨header, own⟩

/-- A message of the application agrees with the request, if the id that its body then
carries is the request's. -/
theorem Service.Tells.message {requestId : Bytes} {before : List SendMessage}
    {message : SendMessage} (tells : service.Tells requestId before)
    (own : ∀ headers body, response (before ++ [message]) = some (headers, body) →
      ∀ carried ∈ service.carried body, carried = decodeLatin1 requestId) :
    service.Tells requestId (before ++ service.stamped requestId [message]) := by
  intro headers body received
  rw [response_append] at received
  have whole : response (before ++ [message]) = extend (response before) message :=
    response_append ..
  rw [whole] at own
  cases message with
  | start status headers' =>
      obtain ⟨rfl, rfl⟩ := Prod.mk.inj (Option.some.inj received)
      exact ⟨headerIds_put .., own headers' [] rfl⟩
  | body chunk moreBody =>
      have same : extend (response before) (.body chunk moreBody) = some (headers, body) := received
      refine ⟨?_, own headers body same⟩
      cases begun : response before with
      | none =>
          rw [begun] at same
          cases same
      | some parts =>
          obtain ⟨headers', body'⟩ := parts
          rw [begun] at same
          obtain ⟨rfl, _⟩ := Prod.mk.inj (Option.some.inj same)
          exact (tells _ _ begun).1
  | other type =>
      have same : extend (response before) (.other type) = some (headers, body) := received
      have kept : extend (response before) (.other type) = response before := by
        cases response before <;> rfl
      exact tells headers body (kept.symm.trans same)

theorem Service.Consistent.agrees {s : History} (consistent : service.Consistent s) :
    service.Agrees s := by
  intro id headers body received requestId found
  cases arrived : s.ids id with
  | none =>
      rw [consistent.silent id arrived] at received
      cases received
  | some own =>
      obtain ⟨header, same⟩ := consistent.tells id own arrived headers body received
      rw [header, same requestId found]

/-- The call of a request that has just arrived knows its id. -/
theorem bound_begin (arrival : Arrival) (requestId : Bytes) (cfg : IdempotencyMiddleware) :
    Bound requestId ((arrival.request requestId).begin cfg) := by
  have same : bindingsOf ((arrival.request requestId).begin cfg) =
      bind arrival.scope (decodeLatin1 requestId) := by
    unfold Request.begin
    cases dispatch cfg (arrival.request requestId).scope with
    | error e => rfl
    | ok way => cases way <;> rfl
  obtain ⟨state, contextvars⟩ := requestId_bind arrival.scope (decodeLatin1 requestId)
  refine ⟨?_, ?_⟩
  · rw [same]
    exact contextvars
  · rw [same]
    exact state

/-- Only a header that cannot be decoded ends a call at once. -/
theorem speaks_answered_begin (request : Request) (cfg : IdempotencyMiddleware)
    (requestId : Bytes) :
    service.Speaks requestId (service.answered requestId (request.begin cfg)) := by
  unfold Request.begin
  cases dispatch cfg request.scope with
  | error e => exact speaks_rescued requestId _ e
  | ok way => cases way <;> exact .inl rfl

/-- How a resumed call has ended speaks for the request, unless it ended by replaying a
record whose body carries another id. -/
theorem speaks_answered {cfg : IdempotencyMiddleware} {now : ℕ} {fault : Option PyExc}
    {p q : Proc} {requestId : Bytes} (moves : p.Resumes cfg sha256 now fault q)
    (bound : Bound requestId p)
    (own : fault = none → ∀ record ∈ foundRecord p.phase,
      record.fingerprint = p.ticket.fingerprint sha256 →
        ∀ body ∈ (encodeLatin1 record.body).toOption,
          ∀ carried ∈ service.carried body, p.requestId = some carried) :
    service.Speaks requestId (service.answered requestId q) := by
  cases phase : q.phase with
  | ended ending =>
      cases ending with
      | returned =>
          rw [Service.answered, phase]
          exact .inl rfl
      | raised e =>
          rw [Service.answered, phase]
          exact speaks_rescued requestId q e
      | problem detail =>
          rw [Service.answered, phase]
          exact speaks_problem ((problem_of_resumes moves phase).trans bound.contextvars)
      | replayed record writer =>
          obtain ⟨reply, same⟩ := replayed_of_resumes moves phase
          rw [Service.answered, phase]
          simp only [replay]
          cases encoded : encodeLatin1 record.body with
          | error e => exact speaks_rescued requestId q e
          | ok body =>
              refine speaks_stamped fun carried found => ?_
              have read : record ∈ foundRecord p.phase := by
                rw [reply]
                rfl
              have known := own (fault_of_replayed moves phase) record read same body
                (by rw [encoded]; rfl) carried found
              exact Option.some.inj (known.symm.trans bound.contextvars)
  | _ =>
      rw [Service.answered, phase]
      exact .inl rfl

/-! ### One step -/

/-- One client receives more, and nothing else changes that is known of the others. -/
theorem tells_deliver {s : History} {id : ℕ} {messages : List SendMessage} {requestId : Bytes}
    (tells : ∀ other requestId, s.ids other = some requestId →
      service.Tells requestId (s.received other))
    (here : s.ids id = some requestId)
    (more : service.Tells requestId (s.received id ++ messages)) :
    ∀ other requestId, s.ids other = some requestId →
      service.Tells requestId ((s.deliver id messages).received other) := by
  intro other requestId' known
  by_cases same : other = id
  · subst same
    obtain rfl := Option.some.inj (here.symm.trans known)
    rw [received_deliver_self]
    exact more
  · rw [received_deliver_of_ne same]
    exact tells other requestId' known

/-- A request that arrives gets its id, and is refused with it or goes on with it. -/
theorem consistent_arrive {s : History} {id : ℕ} (consistent : service.Consistent s)
    (fresh : s.ids id = none) (arrival : Arrival) :
    service.Consistent (service.arrive s id arrival) := by
  let requestId := service.context.requestId arrival.scope arrival.generated
  let bound : History := { s with ids := Function.update s.ids id (some requestId) }
  have here : bound.ids id = some requestId := Function.update_self ..
  have elsewhere : ∀ other, other ≠ id → bound.ids other = s.ids other := fun other different =>
    Function.update_of_ne different ..
  have before : ∀ other own, bound.ids other = some own →
      service.Tells own (bound.received other) := by
    intro other own known
    by_cases same : other = id
    · have empty : bound.received other = [] := consistent.silent other (same ▸ fresh)
      rw [empty]
      exact tells_nil own
    · exact consistent.tells other own ((elsewhere other same).symm.trans known)
  have silent : ∀ other messages, bound.ids other = none →
      (bound.deliver id messages).received other = [] := by
    intro other messages unknown
    by_cases same : other = id
    · rw [same, here] at unknown
      cases unknown
    · rw [received_deliver_of_ne same]
      exact consistent.silent other ((elsewhere other same).symm.trans unknown)
  have calls : ∀ other p, s.sys.procs other = some p → ∃ own, bound.ids other = some own ∧
      Bound own p := by
    intro other p there
    obtain ⟨own, known, bound'⟩ := consistent.bound other p there
    refine ⟨own, ?_, bound'⟩
    rw [elsewhere other (by rintro rfl; rw [fresh] at known; cases known)]
    exact known
  unfold Service.arrive
  cases refusing : service.limit.filter (Service.refuses arrival.scope) with
  | some limit =>
      refine ⟨calls, fun other => silent other _, ?_⟩
      exact tells_deliver before here ((before id requestId here).append (speaks_problem rfl))
  | none =>
      refine ⟨?_, fun other => silent other _, ?_⟩
      · intro other p there
        rcases procs_put_cases there with ⟨rfl, rfl⟩ | ⟨_, also⟩
        · exact ⟨requestId, here, bound_begin arrival requestId service.cfg⟩
        · exact calls other p also
      · exact tells_deliver before here
          ((before id requestId here).append (speaks_answered_begin _ _ requestId))

/-- A request that goes on without a foreign record keeps everything consistent. -/
theorem consistent_resume {s next : History} {id : ℕ} {fault : Option PyExc}
    (library : service.TakesLibraryIds s (.resume id fault))
    (own : service.NoForeignReplay sha256 s (.resume id fault)) (consistent : service.Consistent s)
    (taken : service.step sha256 s (.resume id fault) = some next) : service.Consistent next := by
  obtain ⟨sys, stepped, rfl⟩ := Option.map_eq_some_iff.mp taken
  obtain ⟨p, q, there, _, moved, rfl⟩ := step_resume.mp stepped
  have moves := resumes_of_resume moved
  obtain ⟨requestId, known, bound⟩ := consistent.bound id p there
  have emitted : service.emits s ((s.sys.leave id p).put id q) id =
      service.stamped requestId (service.passes p).toList ++ service.answered requestId q := by
    rw [Service.emits, known, there, put_procs_self]
  have passed : service.Tells requestId
      (s.received id ++ service.stamped requestId (service.passes p).toList) := by
    have before := consistent.tells id requestId known
    cases passing : service.passes p with
    | none =>
        rw [Option.toList_none, Service.stamped, List.map_nil, List.append_nil]
        exact before
    | some message =>
        refine before.message fun headers body received carried found => ?_
        rcases library p there message passing _ received carried found with read | read
        · exact Option.some.inj (read.symm.trans bound.state)
        · exact Option.some.inj (read.symm.trans bound.contextvars)
  have answered : service.Speaks requestId (service.answered requestId q) := by
    refine speaks_answered moves bound fun replied => ?_
    subst replied
    exact own p there
  refine ⟨?_, ?_, ?_⟩
  · intro other p' also
    rcases procs_put_cases also with ⟨rfl, rfl⟩ | ⟨_, before⟩
    · exact ⟨requestId, known, bound.congr (bindingsOf_of_resumes moves)⟩
    · rw [leave_procs] at before
      exact consistent.bound other p' before
  · intro other unknown
    have different : other ≠ id := by
      rintro rfl
      cases known.symm.trans unknown
    exact (received_deliver_of_ne different).trans (consistent.silent other unknown)
  · refine tells_deliver consistent.tells known ?_
    rw [emitted, ← List.append_assoc]
    exact passed.append answered

/-- The steps of Redis and of time deliver nothing. -/
theorem consistent_of_keeps {s : History} {sys : Sys} (consistent : service.Consistent s)
    (calls : ∀ id q, sys.procs id = some q →
      ∃ p, s.sys.procs id = some p ∧ bindingsOf q = bindingsOf p) :
    service.Consistent { s with sys } := by
  refine ⟨?_, consistent.silent, consistent.tells⟩
  intro id q also
  obtain ⟨p, there, same⟩ := calls id q also
  obtain ⟨requestId, known, bound⟩ := consistent.bound id p there
  exact ⟨requestId, known, bound.congr same⟩

theorem bindingsOf_of_step {cfg : IdempotencyMiddleware} {s next : Sys} {l : Idempotency.Label}
    (arrives : ∀ id request, l ≠ .arrive id request)
    (taken : Idempotency.step cfg sha256 s l = some next) {id : ℕ} {q : Proc}
    (after : next.procs id = some q) :
    ∃ p, s.procs id = some p ∧ bindingsOf q = bindingsOf p := by
  rcases arrived_or_goes_of_step after taken with ⟨request, same, _⟩ | ⟨p, there, goes⟩
  · exact absurd same (arrives id request)
  · refine ⟨p, there, ?_⟩
    cases goes with
    | resumed moves => exact bindingsOf_of_resumes moves
    | _ => rfl

/-- **One step.** Whatever happens, header and body keep agreeing, unless a request is
handed a record whose body carries another id. -/
theorem consistent_step {s next : History} {l : Event} (library : service.TakesLibraryIds s l)
    (own : service.NoForeignReplay sha256 s l) (consistent : service.Consistent s)
    (taken : service.step sha256 s l = some next) : service.Consistent next := by
  cases l with
  | arrive id arrival =>
      simp only [Service.step] at taken
      cases fresh : s.ids id with
      | some requestId =>
          rw [fresh] at taken
          cases taken
      | none =>
          rw [fresh] at taken
          obtain rfl := Option.some.inj taken
          exact consistent_arrive consistent fresh arrival
  | resume id fault => exact consistent_resume library own consistent taken
  | elapse ms =>
      obtain rfl := Option.some.inj taken
      exact consistent_of_keeps consistent fun _ p there => ⟨p, there, rfl⟩
  | timeout id =>
      obtain ⟨sys, stepped, rfl⟩ := Option.map_eq_some_iff.mp taken
      refine consistent_of_keeps consistent fun _ _ => bindingsOf_of_step ?_ stepped
      rintro _ _ ⟨⟩
  | redis id =>
      obtain ⟨sys, stepped, rfl⟩ := Option.map_eq_some_iff.mp taken
      refine consistent_of_keeps consistent fun _ _ => bindingsOf_of_step ?_ stepped
      rintro _ _ ⟨⟩
  | late id =>
      obtain ⟨sys, stepped, rfl⟩ := Option.map_eq_some_iff.mp taken
      refine consistent_of_keeps consistent fun _ _ => bindingsOf_of_step ?_ stepped
      rintro _ _ ⟨⟩

/-- A request that is handed a record whose body carries another id gets a response that
disagrees with itself. -/
theorem not_agrees_of_step {s next : History} {l : Event}
    (foreign : ¬ service.NoForeignReplay sha256 s l) (consistent : service.Consistent s)
    (taken : service.step sha256 s l = some next) : ¬ service.Agrees next := by
  unfold Service.NoForeignReplay at foreign
  split at foreign
  · rename_i id
    simp only [not_forall] at foreign
    obtain ⟨p, there, record, read, same, body, encodes, carried, found, other⟩ := foreign
    obtain ⟨writer, reply⟩ := getReply_of_foundRecord read
    have encoded := ok_of_mem_toOption encodes
    obtain ⟨sys, stepped, rfl⟩ := Option.map_eq_some_iff.mp taken
    obtain ⟨p', q, own, _, moved, rfl⟩ := step_resume.mp stepped
    obtain rfl := Option.some.inj (own.symm.trans there)
    obtain ⟨requestId, known, bound⟩ := consistent.bound id p' own
    have replays : q.phase = .ended (.replayed record writer) := by
      simp only [Proc.resume, reply, Option.some.injEq] at moved
      subst moved
      exact congrArg Phase.ended (handleExisting_eq_replayed.mpr ⟨rfl, same⟩)
    have silent : service.passes p' = none := by rw [Service.passes, reply]
    have emitted : service.emits s ((s.sys.leave id p').put id q) id =
        service.answered requestId q := by
      rw [Service.emits, known, own, put_procs_self]
      simp only [silent, Option.toList_none, Service.stamped, List.map_nil, List.nil_append]
    obtain ⟨status, headers, sent⟩ : ∃ status headers, service.answered requestId q =
        service.stamped requestId [.start status headers, .body body false] := by
      rw [Service.answered, replays]
      simp only [replay, encoded]
      exact ⟨_, _, rfl⟩
    intro agrees
    have received : response ((s.deliver id
        (service.emits s ((s.sys.leave id p').put id q) id)).received id) =
        some (put service.context.headerName requestId headers, body) := by
      rw [received_deliver_self, emitted, sent, response_append]
      rfl
    have header := agrees id _ body received carried found
    rw [headerIds_put] at header
    have same : decodeLatin1 requestId = carried := (List.cons.inj header).1
    rw [← same] at other
    exact other bound.contextvars
  · exact absurd trivial foreign

/-- **When header and body agree.** In every history of requests through the stack, with
the idempotency layer or without it, every response whose body carries a request id taken
from the library has that id, and no other, in its `X-Request-ID` header, if and only if
no request is answered from a record whose body carries an id that is not its own. -/
theorem request_ids_agree_iff {s : Sys} {t : History} {ls : List Event}
    (fresh : ∀ id, s.procs id = none)
    (library : EveryStep (service.step sha256) service.TakesLibraryIds { sys := s } ls)
    (run : exec (service.step sha256) { sys := s } ls = some t) :
    EveryState (service.step sha256) service.Agrees { sys := s } ls ↔
      EveryStep (service.step sha256) (service.NoForeignReplay sha256) { sys := s } ls := by
  refine everyState_iff_everyStep (fun _ => Service.Consistent.agrees) ?_ ?_ run library ?_
  · intro s l next taken own consistent step
    exact consistent_step taken own consistent step
  · intro s l next _ foreign consistent step
    exact not_agrees_of_step foreign consistent step
  · refine ⟨?_, fun _ _ => rfl, ?_⟩
    · intro id p there
      cases (fresh id).symm.trans there
    · intro id requestId known
      cases known

/-! ## A retry -/

def opening : List Char := "\x7b\"request_id\":\"".toList

/-- The JSON text of an object with this one member, for an id that needs no escapes. -/
def idBody (requestId : String) : Bytes :=
  encode (String.ofList (opening ++ requestId.toList ++ ['"', '\x7d']))

/-- The id in such a text. -/
def readId (body : Bytes) : Option String :=
  match decode body with
  | .ok text =>
      if opening.isPrefixOf text.toList then
        some (String.ofList ((text.toList.drop opening.length).dropLast.dropLast))
      else none
  | .error _ => none

theorem readId_idBody (requestId : String) : readId (idBody requestId) = some requestId := by
  have prefixed : opening.isPrefixOf (opening ++ requestId.toList ++ ['"', '\x7d']) = true := by
    rw [List.isPrefixOf_iff_prefix, List.append_assoc]
    exact List.prefix_append ..
  have rest : ((opening ++ requestId.toList ++ ['"', '\x7d']).drop opening.length) =
      requestId.toList ++ ['"', '\x7d'] := by
    rw [List.append_assoc, List.drop_left]
  have closed : (requestId.toList ++ ['"', '\x7d']).dropLast.dropLast = requestId.toList := by
    simp
  rw [readId, idBody, decode_encode]
  simp only [String.toList_ofList, prefixed, if_true, rest, closed, String.ofList_toList]

/-- A problem of which no other member is told. -/
def renderId (detail : ProblemDetail) : Bytes :=
  match detail.requestId with
  | some requestId => idBody requestId
  | none => encode "\x7b\x7d"

theorem readId_renderId (detail : ProblemDetail) : readId (renderId detail) = detail.requestId := by
  unfold renderId
  cases detail.requestId with
  | some requestId => exact readId_idBody requestId
  | none =>
      rw [readId, decode_encode]
      rfl

theorem megabyte_pos : 0 < 1024 * 1024 := by decide

/-- A service with the idempotency layer, that tells no more in a body than the id. -/
def idService : Service where
  limit := some { positive := megabyte_pos }
  idempotency := some {}
  rendering := ⟨renderId, 0⟩
  carried := readId
  reads := readId_renderId

/-- An order whose handler puts the id of its request in the envelope it answers with. -/
def envelopeOrder (requestId : String) (headers : List (Bytes × Bytes)) : Arrival where
  scope := { orderScope with headers := orderScope.headers ++ headers }
  stream := [.request [] false]
  generated := encode requestId
  app := .sending [.start 201 [], .body (idBody requestId) false]

/-- The first attempt is answered and recorded, and the retry finds the record. -/
def retried (first later : Arrival) : List Event :=
  [.arrive 0 first, .resume 0 none, .redis 0, .resume 0 none, .resume 0 none, .resume 0 none,
    .resume 0 none, .redis 0, .resume 0 none, .arrive 1 later, .resume 1 none, .redis 1,
    .resume 1 none, .redis 1, .resume 1 none]

instance (service : Service) (s : History) (l : Event) :
    Decidable (service.TakesLibraryIds s l) := by
  unfold Service.TakesLibraryIds
  cases l <;> infer_instance

instance (service : Service) (sha256 : Bytes → String) (s : History) (l : Event) :
    Decidable (service.NoForeignReplay sha256 s l) := by
  unfold Service.NoForeignReplay
  split <;> infer_instance

/-- A retry that repeats the `X-Request-ID` of the first attempt. -/
def faithfulRetry : List Event :=
  retried (envelopeOrder "r0" [(encode "x-request-id", encode "r0")])
    (envelopeOrder "r1" [(encode "x-request-id", encode "r0")])

/-- Both attempts are answered with one id, in the header and in the body. -/
theorem faithful_retry_agrees :
    EveryState (idService.step decodeLatin1) idService.Agrees {} faithfulRetry ∧
      ∃ t ∈ exec (idService.step decodeLatin1) {} faithfulRetry,
        (response (t.received 1)).map (fun sent => (idService.headerIds sent.1, readId sent.2)) =
          some (["r0"], some "r0") := by
  obtain ⟨t, run, replayed⟩ :
      ∃ t ∈ exec (idService.step decodeLatin1) {} faithfulRetry,
        (response (t.received 1)).map (fun sent => (idService.headerIds sent.1, readId sent.2)) =
          some (["r0"], some "r0") := by
    decide +kernel
  have library : EveryStep (idService.step decodeLatin1) idService.TakesLibraryIds {}
      faithfulRetry := by
    decide +kernel
  have own : EveryStep (idService.step decodeLatin1) (idService.NoForeignReplay decodeLatin1) {}
      faithfulRetry := by
    decide +kernel
  exact ⟨(request_ids_agree_iff (fun _ => rfl) library run).mpr own, t, run, replayed⟩

/-- A retry that leaves the id to the server. -/
def plainRetry : List Event := retried (envelopeOrder "r0" []) (envelopeOrder "r1" [])

/-- **The replay carries the first id.** The retry is answered with its own id in the
header and that of the first attempt in the body, though each handler puts the id that the
library gives it in its envelope. -/
theorem replay_carries_first_id :
    EveryStep (idService.step decodeLatin1) idService.TakesLibraryIds {} plainRetry ∧
      ∃ t ∈ exec (idService.step decodeLatin1) {} plainRetry,
        ¬ idService.Agrees t ∧
          (response (t.received 1)).map
            (fun sent => (idService.headerIds sent.1, readId sent.2)) =
              some (["r1"], some "r0") := by
  refine ⟨by decide +kernel, ?_⟩
  obtain ⟨t, run, replayed⟩ :
      ∃ t ∈ exec (idService.step decodeLatin1) {} plainRetry,
        (response (t.received 1)).map (fun sent => (idService.headerIds sent.1, readId sent.2)) =
          some (["r1"], some "r0") := by
    decide +kernel
  refine ⟨t, run, ?_, replayed⟩
  intro agrees
  obtain ⟨⟨headers, body⟩, received, parts⟩ := Option.map_eq_some_iff.mp replayed
  obtain ⟨header, carried⟩ := Prod.mk.inj parts
  have same := agrees 1 headers body received "r0" carried
  rw [header] at same
  exact absurd same (by decide)

end PyCommon.RequestIds
