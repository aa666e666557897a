import PyCommon.Asgi
import PyCommon.Lib.Separated

/-!
# What makes two requests the same request

The settings of the idempotency middleware, and the two digests it takes of a
request. The Redis key is the digest of caller, method, path and idempotency key;
the fingerprint is the digest of method, path, query string and body. Both texts
are joined with `|`, which none of the parts escapes.

A text determines its parts as soon as it is known how often `|` occurs in them
(`sameScope_of_keyText`, `query_body_of_fingerprintText`), and the digest of an injective
function determines the text (`keyText_of_redisKey`).
-/

set_option autoImplicit false

namespace PyCommon.Idempotency

/-! ## Settings -/

/-- The attributes of a constructed middleware. `ttl_pos` is the check that
`__init__` makes, and `methods` are in upper case. -/
structure IdempotencyMiddleware where
  ttlSeconds : ℕ := 24 * 60 * 60
  methods : List String := ["POST", "PATCH", "DELETE"]
  keyspace : String := "idem"
  maxStoredBytes : ℤ := 256 * 1024
  failOpen : Bool := false
  ttl_pos : 0 < ttlSeconds := by decide

/-- `IdempotencyMiddleware.__init__`. `none` is the `ValueError`. -/
def IdempotencyMiddleware.init (ttlSeconds : ℤ) (methods : List String) (keyspace : String)
    (maxStoredBytes : ℤ) (failOpen : Bool) : Option IdempotencyMiddleware :=
  if positive : 0 < ttlSeconds then
    some { ttlSeconds := ttlSeconds.toNat, methods := methods.map upper, keyspace, maxStoredBytes,
           failOpen, ttl_pos := by omega }
  else none

/-! ## Reading the scope -/

/-- `_header`: the first header of that name, which must be valid UTF-8. -/
def header (scope : Scope) (name : String) : Except PyExc (Option String) :=
  match scope.headers.find? fun pair => lowerBytes pair.1 = encode name with
  | none => .ok none
  | some pair => (decode pair.2).map some

/-- The subject `_caller` sees: that of a user in a state that is a plain dict. -/
def visibleSubject (scope : Scope) : Option String :=
  match scope.state with
  | some (.dict entries) => entries.user.bind User.sub
  | _ => none

/-- `_caller`. -/
def caller (scope : Scope) : String :=
  let peer := match scope.client with
    | some client => "ip:" ++ client.1
    | none => "anonymous"
  match visibleSubject scope with
  | some sub => if sub = "" then peer else "sub:" ++ sub
  | none => peer

/-- Where `__call__` sends a request before it reads anything from Redis. -/
inductive Dispatch where
  | passThrough
  | keyed (key : String)
  deriving DecidableEq

def dispatch (cfg : IdempotencyMiddleware) (scope : Scope) : Except PyExc Dispatch :=
  if scope.type ≠ .http ∨ upper scope.method ∉ cfg.methods then .ok .passThrough
  else
    match header scope "idempotency-key" with
    | .error e => .error e
    | .ok none => .ok .passThrough
    | .ok (some key) => if key = "" then .ok .passThrough else .ok (.keyed key)

/-! ## The two digests -/

/-- A request as the middleware identifies it: its scope, the value of its
`Idempotency-Key` and the body it buffered. -/
structure Ticket where
  scope : Scope
  key : String
  body : Bytes
  deriving DecidableEq

/-- The text `_redis_key` digests. -/
def Ticket.keyText (t : Ticket) : String :=
  caller t.scope ++ "|" ++ t.scope.method ++ "|" ++ t.scope.path ++ "|" ++ t.key

/-- The bytes `_fingerprint` digests. -/
def Ticket.fingerprintText (t : Ticket) : Bytes :=
  [124].intercalate [encode t.scope.method, encode t.scope.path, t.scope.queryString, t.body]

variable (sha256 : Bytes → String) (cfg : IdempotencyMiddleware)

/-- `_redis_key`. -/
def Ticket.redisKey (t : Ticket) : String :=
  "idempotency:\x7b" ++ cfg.keyspace ++ "\x7d:" ++ sha256 (encode t.keyText)

/-- `_fingerprint`. -/
def Ticket.fingerprint (t : Ticket) : String := sha256 t.fingerprintText

variable {sha256 cfg}

theorem keyText_of_redisKey (injective : Function.Injective sha256) {t u : Ticket}
    (same : t.redisKey sha256 cfg = u.redisKey sha256 cfg) : t.keyText = u.keyText :=
  encode_injective (injective (String.append_right_inj _ |>.mp same))

theorem redisKey_eq_iff (injective : Function.Injective sha256) {t u : Ticket} :
    t.redisKey sha256 cfg = u.redisKey sha256 cfg ↔ t.keyText = u.keyText :=
  ⟨keyText_of_redisKey injective, fun same =>
    congrArg (fun text => _ ++ sha256 (encode text)) same⟩

/-! ## What the texts determine -/

/-- Two requests agree in everything a Redis key is meant to stand for. -/
structure SameScope (t u : Ticket) : Prop where
  caller : caller t.scope = caller u.scope
  method : t.scope.method = u.scope.method
  path : t.scope.path = u.scope.path
  key : t.key = u.key

/-- Two requests are the same request. -/
structure SameRequest (t u : Ticket) : Prop extends SameScope t u where
  query : t.scope.queryString = u.scope.queryString
  body : t.body = u.body

/-- How often a text holds the separator. -/
def bars (text : String) : ℕ := text.toList.count '|'

theorem keyText_toList (t : Ticket) : t.keyText.toList = ['|'].intercalate
    [(caller t.scope).toList, t.scope.method.toList, t.scope.path.toList, t.key.toList] := by
  simp [Ticket.keyText, List.intercalate]

/-- The key text determines its parts when `|` occurs equally often in
corresponding parts before the last. -/
theorem sameScope_of_keyText {t u : Ticket} (same : t.keyText = u.keyText)
    (callers : bars (caller t.scope) = bars (caller u.scope))
    (methods : bars t.scope.method = bars u.scope.method)
    (paths : bars t.scope.path = bars u.scope.path) : SameScope t u := by
  have lists := congrArg String.toList same
  rw [keyText_toList, keyText_toList] at lists
  have counts : [(caller t.scope).toList, t.scope.method.toList, t.scope.path.toList].map
        (List.count '|') =
      [(caller u.scope).toList, u.scope.method.toList, u.scope.path.toList].map
        (List.count '|') :=
    congrArg₂ List.cons callers (congrArg₂ List.cons methods (congrArg₂ List.cons paths rfl))
  have parts := Separated.intercalate_inj_of_count lists rfl counts
  simp only [List.cons.injEq, String.toList_inj, and_true] at parts
  exact ⟨parts.1, parts.2.1, parts.2.2.1, parts.2.2.2⟩

theorem SameScope.keyText {t u : Ticket} (same : SameScope t u) : t.keyText = u.keyText := by
  rw [Ticket.keyText, Ticket.keyText, same.caller, same.method, same.path, same.key]

/-- Of requests for one method and path, the fingerprint text determines query
string and body when `|` occurs equally often in the query strings. -/
theorem query_body_of_fingerprintText {t u : Ticket} (same : t.fingerprintText = u.fingerprintText)
    (method : t.scope.method = u.scope.method) (path : t.scope.path = u.scope.path)
    (queries : t.scope.queryString.count 124 = u.scope.queryString.count 124) :
    t.scope.queryString = u.scope.queryString ∧ t.body = u.body := by
  have counts : [encode t.scope.method, encode t.scope.path, t.scope.queryString].map
        (List.count 124) =
      [encode u.scope.method, encode u.scope.path, u.scope.queryString].map (List.count 124) := by
    rw [method, path, List.map, List.map, List.map, queries]
    rfl
  have parts := Separated.intercalate_inj_of_count same rfl counts
  simp only [List.cons.injEq, and_true] at parts
  exact parts.2.2

theorem SameRequest.fingerprintText {t u : Ticket} (same : SameRequest t u) :
    t.fingerprintText = u.fingerprintText := by
  rw [Ticket.fingerprintText, Ticket.fingerprintText, same.method, same.path, same.query, same.body]

end PyCommon.Idempotency
