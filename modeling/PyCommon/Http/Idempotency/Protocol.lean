import PyCommon.Http.Idempotency.Body
import PyCommon.Http.Idempotency.Identity
import PyCommon.Http.Idempotency.Recorder
import PyCommon.Lib.Keyspace
import PyCommon.Lib.Runs
import PyCommon.Problem

/-!
# Requests sharing an idempotency store

Any number of requests pass through the middleware against one Redis. The state of
a request is the point its `__call__` has reached, which is always an `await`: a
Redis command that the server has not executed yet, the reply to one that it has,
or an await of the wrapped app. A label names who moves. `resume` lets the awaited
thing happen, or makes the await raise; `redis` has the server execute the command
a request has sent; `elapse` passes time and drops the keys that are due; `timeout`
is the deadline of the enclosing timeout middleware, after which any await of that
request may raise `CancelledError`, unless its response had started.

A request can leave the await of a command that the server has not executed yet. The
command has been sent, and the server may still execute it at any later moment
(`late`), also when the request is long over; nobody receives the reply. An answer
sent on the middleware's own account ends a request: nothing happens after its
messages. The values in Redis are kept as the records their JSON texts encode.
Two history variables record what no code reads: the writer of a stored value, and
the messages an app has handed to `send_wrapper`.
-/

set_option autoImplicit false

namespace PyCommon.Idempotency

open StepSystem

/-! ## Values and requests -/

/-- A value under a key: the marker `_claim` places, or a done record. -/
inductive Stored where
  | inFlight (fingerprint : String)
  | done (record : DoneRecord)
  deriving DecidableEq

/-- `stored.get("fingerprint")`. -/
def Stored.fingerprint : Stored → String
  | .inFlight fingerprint => fingerprint
  | .done record => record.fingerprint

/-- `stored.get("state")` is not the in-flight one. -/
def Stored.isDone : Stored → Bool
  | .inFlight _ => false
  | .done _ => true

/-- A value with the request whose command wrote it. -/
structure Held where
  value : Stored
  writer : ℕ
  deriving DecidableEq

/-- How a call of the middleware ends. `replayed` sends the messages of `replay` on
a record, and keeps who wrote the record. -/
inductive Ending where
  | returned
  | raised (e : PyExc)
  | problem (detail : ProblemDetail)
  | replayed (stored : DoneRecord) (writer : ℕ)
  deriving DecidableEq

/-- Where a call stands. `running` is the wrapped app under `_run_and_record`,
`unrecorded` the wrapped app called directly; `deleting` is `_release`, after which
the app's result becomes that of the call. -/
inductive Phase where
  | buffering
  | setting
  | setReply (won : Bool)
  | getting
  | getReply (raw : Option Held)
  | running
  | deleting (result : Except PyExc Unit)
  | deleteReply (result : Except PyExc Unit)
  | storing (record : DoneRecord)
  | storeReply
  | unrecorded
  | ended (ending : Ending)
  deriving DecidableEq

/-- What arrives: the connection, what the client will send on it, the wrapped app
serving it, and the request id bound to the context. -/
structure Request where
  scope : Scope
  stream : List ReceiveMessage := []
  app : App
  requestId : Option String := none

structure Proc where
  ticket : Ticket
  requestId : Option String
  app : App
  receiver : Receiver
  recorder : Recorder := {}
  handed : List SendMessage := []
  started : Bool := false
  timedOut : Bool := false
  phase : Phase

/-! ## The steps of one request -/

/-- What an await of nothing in particular gives. -/
def outcome (fault : Option PyExc) : Except PyExc Unit :=
  match fault with
  | none => .ok ()
  | some e => .error e

/-- The error code `_conflict` picks. -/
def conflictCode (statusCode : ℤ) : ErrorCode := if statusCode = 409 then .idempotency else .server

theorem problemTypeUri_conflictCode (statusCode : ℤ) (baseUrl : Option String) :
    (problemTypeUri (conflictCode statusCode) baseUrl).isSome := by
  rw [Option.isSome_iff_ne_none, ne_eq, problemTypeUri_eq_none, conflictCode]
  split <;> simp

/-- How a `try: … except RedisError` around one command ends, when all that is left
is `ending`. -/
def swallow (ending : Ending) (fault : Option PyExc) : Ending :=
  match fault with
  | none => ending
  | some .redisError => ending
  | some e => .raised e

/-- A call that ends as the wrapped app did. -/
def Ending.ofResult : Except PyExc Unit → Ending
  | .ok _ => .returned
  | .error e => .raised e

variable (cfg : IdempotencyMiddleware) (sha256 : Bytes → String)

/-- `__call__` up to its first await. -/
def Request.begin (request : Request) : Proc :=
  let proc : Proc :=
    { ticket := ⟨request.scope, "", []⟩, requestId := request.requestId, app := request.app,
      receiver := ⟨none, request.stream⟩, phase := .unrecorded }
  match dispatch cfg request.scope with
  | .error e => { proc with phase := .ended (.raised e) }
  | .ok .passThrough => proc
  | .ok (.keyed key) => { proc with ticket := ⟨request.scope, key, []⟩, phase := .buffering }

/-- `_conflict`. -/
def Proc.conflict (now : ℕ) (p : Proc) (statusCode : ℤ) (detail : String) : ProblemDetail :=
  { type := (problemTypeUri (conflictCode statusCode) p.ticket.scope.problemTypeBaseUrl).get
      (problemTypeUri_conflictCode ..)
    title := if statusCode = 409 then "Idempotency Conflict" else "Service Unavailable"
    status := statusCode
    detail := some detail
    instance_ := some p.ticket.scope.path
    errorCode := some (conflictCode statusCode).toNat
    requestId := p.requestId
    serverTime := now / 1000 }

/-- `_claim` raised. -/
def Proc.claimFailed (now : ℕ) (p : Proc) (e : PyExc) : Phase :=
  if e = .redisError then
    if cfg.failOpen then .unrecorded
    else .ended (.problem (p.conflict now 503
      "Idempotency store unavailable; retry with the same key"))
  else .ended (.raised e)

/-- `_handle_existing`. -/
def Proc.handleExisting (now : ℕ) (p : Proc) (held : Held) : Ending :=
  if held.value.fingerprint ≠ p.ticket.fingerprint sha256 then
    .problem (p.conflict now 409
      "This Idempotency-Key was already used with a different request body")
  else
    match held.value with
    | .inFlight _ =>
        .problem (p.conflict now 409 "A request with this Idempotency-Key is still in progress")
    | .done record => .replayed record held.writer

/-- What follows in `_run_and_record` once the app has ended. -/
def Proc.appEnded (p : Proc) : Except PyExc Unit → Phase
  | .ok _ =>
      match p.recorder.finish (p.ticket.fingerprint sha256) with
      | none => .deleting (.ok ())
      | some record => .storing record
  | .error e => if e.isException then .deleting (.error e) else .ended (.raised e)

/-- A message the app sends through `send_wrapper`. When recording it raises, the
message is not forwarded. -/
def Proc.sendRecorded (p : Proc) (message : SendMessage) (k : Except PyExc Unit → App)
    (fault : Option PyExc) : Proc :=
  match p.recorder.record cfg.maxStoredBytes message with
  | (recorder, .error e) =>
      { p with recorder, handed := p.handed ++ [message], app := k (.error e) }
  | (recorder, .ok _) =>
      { p with recorder, handed := p.handed ++ [message],
               started := p.started || message.isStart, app := k (outcome fault) }

/-- The await of the wrapped app that the call stands at. -/
def Proc.await (p : Proc) (recorded : Bool) (fault : Option PyExc) : Option Proc :=
  match p.app with
  | .done => none
  | .raise _ => none
  | .receive k =>
      match fault with
      | some e => some { p with app := k (.error e) }
      | none => p.receiver.next.map fun (message, receiver) =>
          { p with app := k (.ok message), receiver }
  | .sleep k => some { p with app := k (outcome fault) }
  | .send message k =>
      if recorded then some (p.sendRecorded cfg message k fault)
      else some { p with started := p.started || message.isStart, app := k (outcome fault) }

/-- The awaited thing happens, or the await raises. `none` when there is nothing to
wait for, or it has not happened yet. -/
def Proc.resume (now : ℕ) (p : Proc) (fault : Option PyExc) : Option Proc :=
  match p.phase, fault with
  | .buffering, none => (bufferBody [] p.receiver.stream).map fun (body, receiver) =>
      { p with ticket := { p.ticket with body }, receiver, phase := .setting }
  | .buffering, some e => some { p with phase := .ended (.raised e) }
  | .setting, fault => fault.map fun e => { p with phase := p.claimFailed cfg now e }
  | .setReply won, none => some { p with phase := if won then .running else .getting }
  | .setReply _, some e => some { p with phase := p.claimFailed cfg now e }
  | .getting, fault => fault.map fun e => { p with phase := p.claimFailed cfg now e }
  | .getReply none, none => some { p with phase := .running }
  | .getReply (some held), none =>
      some { p with phase := .ended (p.handleExisting sha256 now held) }
  | .getReply _, some e => some { p with phase := p.claimFailed cfg now e }
  | .running, fault =>
      match p.app.result, fault with
      | none, fault => p.await cfg true fault
      | some result, none => some { p with phase := p.appEnded sha256 result }
      | some _, some _ => none
  | .deleting result, fault => fault.map fun e =>
      { p with phase := .ended (swallow (.ofResult result) (some e)) }
  | .deleteReply result, fault =>
      some { p with phase := .ended (swallow (.ofResult result) fault) }
  | .storing _, fault => fault.map fun e => { p with phase := .ended (swallow .returned (some e)) }
  | .storeReply, fault => some { p with phase := .ended (swallow .returned fault) }
  | .unrecorded, fault =>
      match p.app.result, fault with
      | none, fault => p.await cfg false fault
      | some result, none => some { p with phase := .ended (.ofResult result) }
      | some _, some _ => none
  | .ended _, _ => none

/-! ## The commands -/

abbrev Store := Keyspace.Store String Held

def Proc.redisKey (p : Proc) : String := p.ticket.redisKey sha256 cfg

/-- The server executes the command a call has sent: `SET key marker NX EX ttl`,
`GET key`, `DEL key` or `SET key record EX ttl`. -/
def Proc.command (now id : ℕ) (store : Store) (p : Proc) : Option (Store × Proc) :=
  let key := p.redisKey cfg sha256
  let deadline := now + cfg.ttlSeconds * 1000
  match p.phase with
  | .setting =>
      match store key with
      | none =>
          let marker := ⟨.inFlight (p.ticket.fingerprint sha256), id⟩
          some (Keyspace.write store key marker deadline, { p with phase := .setReply true })
      | some _ => some (store, { p with phase := .setReply false })
  | .getting => some (store, { p with phase := .getReply ((store key).map Keyspace.Slot.value) })
  | .deleting result => some (Keyspace.delete store key, { p with phase := .deleteReply result })
  | .storing record =>
      some (Keyspace.write store key ⟨.done record, id⟩ deadline, { p with phase := .storeReply })
  | _ => none

/-! ## The system -/

/-- The call has sent a command, and the server has not executed it. -/
def Phase.sent : Phase → Bool
  | .setting => true
  | .getting => true
  | .deleting _ => true
  | .storing _ => true
  | _ => false

/-- `abandoned` keeps a call as it stood when it left the await of a command that the
server had not executed. -/
structure Sys where
  now : ℕ := 0
  store : Store := Keyspace.empty
  procs : ℕ → Option Proc := fun _ => none
  abandoned : ℕ → Option Proc := fun _ => none

inductive Label where
  | arrive (id : ℕ) (request : Request)
  | elapse (ms : ℕ)
  | timeout (id : ℕ)
  | resume (id : ℕ) (fault : Option PyExc)
  | redis (id : ℕ)
  | late (id : ℕ)

/-- Request `id` is now at `p`. -/
def Sys.put (s : Sys) (id : ℕ) (p : Proc) : Sys :=
  { s with procs := Function.update s.procs id (some p) }

/-- Request `id` goes on from `p`. A command that it has sent by then stays with the
server. -/
def Sys.leave (s : Sys) (id : ℕ) (p : Proc) : Sys :=
  if p.phase.sent then { s with abandoned := Function.update s.abandoned id (some p) } else s

def step (s : Sys) : Label → Option Sys
  | .arrive id request =>
      match s.procs id with
      | none => some (s.put id (request.begin cfg))
      | some _ => none
  | .elapse ms => some { s with now := s.now + ms, store := Keyspace.evict (s.now + ms) s.store }
  | .timeout id => (s.procs id).bind fun p =>
      if p.started then none else some (s.put id { p with timedOut := true })
  | .resume id fault => (s.procs id).bind fun p =>
      if fault = some .cancelledError ∧ ¬ p.timedOut then none
      else (p.resume cfg sha256 s.now fault).map ((s.leave id p).put id)
  | .redis id => (s.procs id).bind fun p =>
      (p.command cfg sha256 s.now id s.store).map fun (store, p) =>
        { s.put id p with store }
  | .late id => (s.abandoned id).bind fun p =>
      (p.command cfg sha256 s.now id s.store).map fun (store, _) =>
        { s with store, abandoned := Function.update s.abandoned id none }

end PyCommon.Idempotency
