import PyCommon.Http.Idempotency.Answers
import PyCommon.Http.Middleware.Nest

/-!
# The standard stack in front of guarded routes

`apply_standard_middleware` puts the idempotency layer inside the request context and
outside the router, and `Auth.current_user` guards routes as a dependency of the
router. So the layers before the idempotency middleware leave a request id in the
connection's state and no user (`visibleSubject_inside`), and the caller of a key is
the client address whatever credentials the connection carries (`caller_inside`). The
guard itself keeps its handler from a connection without a valid token
(`guarded_of_subject_eq_none`).

Two connections from one address that agree in the rest are then one request to the
middleware. In every history the later one is spared the response of the earlier one only
by what becomes of that response: it is not stored, or its key expires, is deleted or is
overwritten before the later request has read it (`stored_response_reaches_iff`). A
client without a token is handed what the route would have refused it
(`stranger_handed_stored_order`).
-/

set_option autoImplicit false

namespace PyCommon.Stack

open StepSystem Idempotency

/-! ## Authentication -/

structure HTTPAuthorizationCredentials where
  scheme : String
  credentials : String
  deriving DecidableEq

/-- Of the claims of a validated token only the subject is read here. -/
structure TokenClaims where
  sub : String
  deriving DecidableEq

/-- What a dependency raises: `unauthorized(detail)`, or anything else. -/
inductive AuthError where
  | unauthorized (detail : String)
  | raised (e : PyExc)
  deriving DecidableEq

/-- The dependencies of `Auth`: the bearer scheme with `auto_error=False`, and the
`decode` of the validator. -/
structure Auth where
  bearer : Scope → Option HTTPAuthorizationCredentials
  decode : String → Except AuthError TokenClaims

/-- `Auth.current_user`. The token is decoded in a worker thread, which is awaited. -/
def Auth.currentUser (auth : Auth) (scope : Scope) (k : Except AuthError TokenClaims → App) : App :=
  match auth.bearer scope with
  | none => k (.error (.unauthorized "Not authenticated"))
  | some bearer =>
      if lower bearer.scheme ≠ "bearer" then k (.error (.unauthorized "Not authenticated"))
      else .sleep fun waited =>
        match waited with
        | .ok _ => k (auth.decode bearer.credentials)
        | .error e => k (.error (.raised e))

/-- A route behind `current_user`: its handler, and how a 401 is answered. -/
structure Route where
  handler : TokenClaims → App
  refused : String → App

def Route.guarded (route : Route) (auth : Auth) (scope : Scope) : App :=
  auth.currentUser scope fun result =>
    match result with
    | .ok claims => route.handler claims
    | .error (.unauthorized detail) => route.refused detail
    | .error (.raised e) => .raise e

/-- The subject the credentials of a connection resolve to. -/
def Auth.subject (auth : Auth) (scope : Scope) : Option String :=
  match auth.bearer scope with
  | none => none
  | some bearer =>
      if lower bearer.scheme ≠ "bearer" then none
      else (auth.decode bearer.credentials).toOption.map TokenClaims.sub

/-- The guard holds: for a connection without a subject the handler makes no
difference. -/
theorem guarded_of_subject_eq_none {auth : Auth} {scope : Scope}
    (anonymous : auth.subject scope = none) (route : Route) (handler : TokenClaims → App) :
    ({ route with handler } : Route).guarded auth scope = route.guarded auth scope := by
  simp only [Route.guarded, Auth.currentUser]
  simp only [Auth.subject] at anonymous
  cases bearer : auth.bearer scope with
  | none => rfl
  | some token =>
      rw [bearer] at anonymous
      by_cases other : lower token.scheme ≠ "bearer"
      · simp only [if_pos other]
      · simp only [if_neg other] at anonymous ⊢
        refine congrArg App.sleep ?_
        funext waited
        cases waited with
        | error e => rfl
        | ok value =>
            cases claims : auth.decode token.credentials with
            | error e => cases e <;> rfl
            | ok claims' =>
                rw [claims] at anonymous
                cases anonymous

/-! ## The request context -/

/-- `scope.setdefault("state", {})["request_id"] = request_id`. -/
def setRequestId (scope : Scope) (requestId : String) : Scope :=
  { scope with state := some (match scope.state with
      | none => .dict { requestId := some requestId }
      | some (.dict entries) => .dict { entries with requestId := some requestId }
      | some (.object entries) => .object { entries with requestId := some requestId }) }

/-- What a server hands to the stack: an HTTP connection whose state, if there is one,
is a plain dict without a user. -/
structure Connection where
  scope : Scope
  stream : List ReceiveMessage := []
  http : scope.type = .http
  anonymous : ∀ value ∈ scope.state, ∃ requestId, value = .dict ⟨none, requestId⟩

/-- The id that the request context gives to a request. -/
def Connection.requestId (connection : Connection) (generated : Bytes) : String :=
  decodeLatin1 (({} : Middleware.RequestContextMiddleware).requestId connection.scope generated)

/-- The scope that reaches the idempotency middleware. The layers outside it and the
request context read the scope, and the request context alone writes to it. -/
def Connection.inside (connection : Connection) (generated : Bytes) : Scope :=
  setRequestId connection.scope (connection.requestId generated)

/-- The request that reaches the idempotency middleware, with the guarded route
behind it. -/
def Connection.request (connection : Connection) (auth : Auth) (route : Route)
    (generated : Bytes) : Request :=
  { scope := connection.inside generated, stream := connection.stream,
    app := route.guarded auth (connection.inside generated),
    requestId := some (connection.requestId generated) }

/-- Two connections agree in everything but their credentials, as far as a request is
identified. -/
structure Connection.Agrees (first second : Connection) : Prop where
  method : first.scope.method = second.scope.method
  path : first.scope.path = second.scope.path
  query : first.scope.queryString = second.scope.queryString
  client : first.scope.client.map Prod.fst = second.scope.client.map Prod.fst

/-! ## The caller of a key -/

/-- No user has been left in the state when the caller is determined. -/
theorem visibleSubject_inside (connection : Connection) (generated : Bytes) :
    visibleSubject (connection.inside generated) = none := by
  simp only [visibleSubject, Connection.inside, setRequestId]
  cases state : connection.scope.state with
  | none => rfl
  | some value =>
      obtain ⟨requestId, rfl⟩ := connection.anonymous value state
      rfl

/-- **The caller is the client address.** -/
theorem caller_inside (connection : Connection) (generated : Bytes) :
    caller (connection.inside generated) =
      match connection.scope.client.map Prod.fst with
      | some host => "ip:" ++ host
      | none => "anonymous" := by
  have client : (connection.inside generated).client = connection.scope.client := rfl
  simp only [caller, visibleSubject_inside, client]
  cases connection.scope.client <;> rfl

theorem Connection.Agrees.sameRequest {first second : Connection} (agree : first.Agrees second)
    {generated generated' : Bytes} {key : String} {body : Bytes} :
    SameRequest ⟨first.inside generated, key, body⟩ ⟨second.inside generated', key, body⟩ where
  caller := by
    simp only [caller_inside]
    rw [agree.client]
  method := agree.method
  path := agree.path
  key := rfl
  query := agree.query
  body := rfl

/-! ## Credentials play no part -/

variable {cfg : IdempotencyMiddleware} {sha256 : Bytes → String}

/-- **A stored response reaches a request whatever its credentials.** In every history of
the stack let an earlier and a later request agree in method, path, query string, client
address, idempotency key and body. The later one is never answered with the response
stored for the earlier one if and only if it is not so that the response is stored, that
the key then neither expires nor is deleted or overwritten until the `GET` of the later
request is executed, and that the reply to it reaches the later request. -/
theorem stored_response_reaches_iff {s u : Sys} {ls : List Label} {earlier later : ℕ}
    {p q : Proc} {first second : Connection} {generated generated' : Bytes} {key : String}
    {body : Bytes}
    (fresh : s.Fresh) (vacant : ∀ key, s.store key = none)
    (history : exec (step cfg sha256) s ls = some u)
    (hp : u.procs earlier = some p) (hq : u.procs later = some q) (agree : first.Agrees second)
    (ticket : p.ticket = ⟨first.inside generated, key, body⟩)
    (ticket' : q.ticket = ⟨second.inside generated', key, body⟩) :
    EveryState (step cfg sha256) (NotAnswered earlier later) s ls ↔
      ¬ KeptUntilRead cfg sha256 (q.redisKey cfg sha256) earlier later s ls := by
  have request : SameRequest p.ticket q.ticket := by
    rw [ticket, ticket']
    exact agree.sameRequest
  have sameKey : p.redisKey cfg sha256 = q.redisKey cfg sha256 := by
    rw [Proc.redisKey, Proc.redisKey, Ticket.redisKey, request.keyText]
    rfl
  have same : p.ticket.fingerprint sha256 = q.ticket.fingerprint sha256 := by
    rw [Ticket.fingerprint, request.fingerprintText]
    rfl
  rw [everyState_notAnswered_iff history hq, answered_iff fresh vacant history hp hq sameKey same]

/-! ## Orders with and without a token -/

/-- `HTTPBearer(auto_error=False)`. -/
def httpBearer (scope : Scope) : Option HTTPAuthorizationCredentials :=
  match scope.headers.find? fun pair => lowerBytes pair.1 = encode "authorization" with
  | none => none
  | some pair =>
      let text := (decodeLatin1 pair.2).toList
      let scheme := String.ofList (text.takeWhile (· ≠ ' '))
      let credentials := String.ofList ((text.dropWhile (· ≠ ' ')).drop 1)
      if credentials = "" ∨ lower scheme ≠ "bearer" then none else some ⟨scheme, credentials⟩

/-- A shop with one valid token. -/
def shop : Auth where
  bearer := httpBearer
  decode token :=
    if token = "t1" then .ok ⟨"alice"⟩ else .error (.unauthorized "Invalid or expired token")

/-- A route that answers with the subject it was called by. -/
def orders : Route where
  handler claims := .sending [.start 201 [], .body (encode claims.sub) false]
  refused detail := .sending [.start 401 [], .body (encode detail) false]

/-- An order from the office, with these headers besides the key. -/
def fromOffice (headers : List (Bytes × Bytes)) : Connection where
  scope := { orderScope with headers := orderScope.headers ++ headers,
                             client := some ("10.0.0.1", 5000) }
  stream := [.request [] false]
  http := rfl
  anonymous := nofun

def alice : Connection := fromOffice [(encode "Authorization", encode "Bearer t1")]

def stranger : Connection := fromOffice []

/-- Alice's order is answered and recorded, and the same order is sent without a token. -/
def strangerAfterAlice : List Label :=
  claiming 0 (alice.request shop orders (encode "r0")) ++ [.resume 0 none] ++ answering 0 ++
    settling 0 ++ claiming 1 (stranger.request shop orders (encode "r1")) ++ settling 1

/-- The stranger has no subject, and is refused when it comes alone. After Alice it is
handed what Alice's handler answered. -/
theorem stranger_handed_stored_order :
    (alice.Agrees stranger ∧ shop.subject (alice.inside (encode "r0")) = some "alice" ∧
        shop.subject (stranger.inside (encode "r1")) = none) ∧
      (∃ s ∈ exec (step {} decodeLatin1) {}
          (claiming 1 (stranger.request shop orders (encode "r1")) ++ answering 1),
        ∃ q ∈ s.procs 1, q.handed = [.start 401 [], .body (encode "Not authenticated") false]) ∧
      ∃ s ∈ exec (step {} decodeLatin1) {} strangerAfterAlice,
        (∃ p ∈ s.procs 0, p.handed = [.start 201 [], .body (encode "alice") false]) ∧
        ∃ q ∈ s.procs 1,
          q.phase = .ended (.replayed ⟨q.ticket.fingerprint decodeLatin1, 201, [], "alice"⟩ 0) := by
  refine ⟨⟨⟨rfl, rfl, rfl, rfl⟩, ?_, ?_⟩, ?_, ?_⟩
  all_goals decide +kernel

/-- The shop cannot take orders. -/
def outage : Route := { orders with handler := fun _ => .sending [.start 503 [], .body [] false] }

/-- Alice's order fails, and the same order is sent without a token. -/
def failedOrder : List Label :=
  claiming 0 (alice.request shop outage (encode "r0")) ++ [.resume 0 none] ++ answering 0 ++
    settling 0 ++ claiming 1 (stranger.request shop outage (encode "r1")) ++ answering 1 ++
    settling 1

/-- A failed order is not recorded, so nobody is answered with it. -/
theorem failed_order_not_handed :
    EveryState (step {} decodeLatin1) (NotAnswered 0 1) {} failedOrder := by
  obtain ⟨u, history, p, hp, ticket, q, hq, ticket', unkept⟩ :
      ∃ u ∈ exec (step {} decodeLatin1) {} failedOrder,
        ∃ p ∈ u.procs 0, p.ticket = ⟨alice.inside (encode "r0"), "k1", []⟩ ∧
          ∃ q ∈ u.procs 1, q.ticket = ⟨stranger.inside (encode "r1"), "k1", []⟩ ∧
            ¬ KeptUntilRead {} decodeLatin1 (q.redisKey {} decodeLatin1) 0 1 {} failedOrder := by
    decide +kernel
  have agree : alice.Agrees stranger := ⟨rfl, rfl, rfl, rfl⟩
  exact (stored_response_reaches_iff (fun _ => ⟨rfl, rfl⟩) (fun _ => rfl) history hp hq agree
    ticket ticket').mpr unkept

end PyCommon.Stack
