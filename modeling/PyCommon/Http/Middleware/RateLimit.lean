import PyCommon.Cache.RateLimit
import PyCommon.Http.ErrorHandlers
import PyCommon.Lib.Separated

/-!
# The rate-limit dependency

`build_rate_limit_dep` puts a limiter in front of a route. It chooses the bucket that a
request is counted in (`defaultKey`), and tells the client when to come back, in two headers:
`Retry-After` is a delay and `X-RateLimit-Reset` an instant.

The delay is rounded up. The instant is the sum of a clock that is rounded down and of the
delay, and lies before the one at which the limiter admits again exactly when the fraction
that the clock loses is larger than what the delay gains (`neverEarly_iff_aligned`).

The bucket is the text `method:path:identity`, in which the parts are neither escaped nor
tagged. Of two requests with one key, the callers are the same exactly when `:` occurs
equally often in the methods and in the paths, and both are authenticated or neither is
(`sameBucket_iff`).
-/

set_option autoImplicit false

namespace PyCommon.RateLimitDep

open Cache (RateLimitResult truncate)
open CodePoints (Text text)
open ErrorHandlers (HTTPException)

/-! ## The key -/

/-- What `_default_key` reads of a request: the scope, the `path` attribute of the route in
it, `request.url.path` and `request.state.user`. -/
structure Request where
  scope : Scope
  routePath : Option String
  urlPath : String
  user : Option User
  deriving DecidableEq

/-- `client_ip`. -/
def clientIp (scope : Scope) : Option String := scope.client.map Prod.fst

/-- `getattr(route, "path", request.url.path)`. -/
def Request.path (request : Request) : String := request.routePath.getD request.urlPath

/-- The `identity` of `_default_key`. -/
def Request.identity (request : Request) : Option String :=
  match request.user.bind User.sub with
  | some sub => some sub
  | none => clientIp request.scope

/-- `_default_key`. -/
def defaultKey (request : Request) : Option String :=
  request.identity.map fun identity =>
    request.scope.method ++ ":" ++ request.path ++ ":" ++ identity

/-! ## The dependency -/

/-- The numbers that the dependency puts into headers. -/
structure LimitHeaders where
  limit : ℤ
  remaining : ℤ
  reset : ℤ
  retryAfter : ℤ
  deriving DecidableEq

/-- The headers of every response. -/
def LimitHeaders.pairs (h : LimitHeaders) : List (Text × Text) :=
  [(text "X-RateLimit-Limit", text (toString h.limit)),
   (text "X-RateLimit-Remaining", text (toString h.remaining)),
   (text "X-RateLimit-Reset", text (toString h.reset))]

/-- The exception that refuses a request. -/
def LimitHeaders.tooManyRequests (h : LimitHeaders) : HTTPException :=
  { statusCode := 429
    detail := .str (text "Rate limit exceeded")
    headers := h.pairs ++ [(text "Retry-After", text (toString h.retryAfter))] }

/-- The headers for a result, when the clock reads `now`. -/
def limitHeaders (limit : ℕ) (now : ℚ) (result : RateLimitResult) : LimitHeaders :=
  { limit := if result.limit = 0 then limit else result.limit
    remaining := result.remaining
    reset := truncate now + ⌈result.resetAfterSeconds⌉
    retryAfter := ⌈result.resetAfterSeconds⌉ }

/-- How the dependency ends, with what it has put into the headers. -/
inductive Outcome where
  | unlimited
  | admitted (h : LimitHeaders)
  | refused (h : LimitHeaders)
  | failed (e : PyExc)
  deriving DecidableEq

/-- The `dependency` that is built for a limit, given the key and what the limiter says. -/
def dependency (limit : ℕ) (key : Option String) (hit : String → Except PyExc RateLimitResult)
    (now : ℚ) : Outcome :=
  match key with
  | none => .unlimited
  | some key =>
      match hit key with
      | .error e => .failed e
      | .ok result =>
          if result.allowed then .admitted (limitHeaders limit now result)
          else .refused (limitHeaders limit now result)

/-! ## When a client is told to come back -/

/-- Both instants are at or after the one at which the limiter admits again. -/
def NeverEarly (now : ℚ) (result : RateLimitResult) (h : LimitHeaders) : Prop :=
  now + result.resetAfterSeconds ≤ now + h.retryAfter ∧
    now + result.resetAfterSeconds ≤ h.reset

/-- The clock reads a whole second (or a time before the epoch), or the wait is not whole and
the two fractions make no more than a second. -/
def Aligned (now wait : ℚ) : Prop :=
  now ≤ 0 ∨ Int.fract now = 0 ∨ Int.fract wait ≠ 0 ∧ Int.fract now + Int.fract wait ≤ 1

theorem le_truncate {now : ℚ} (before : now ≤ 0) : now ≤ truncate now := by
  rw [truncate]
  by_cases zero : 0 ≤ now
  · obtain rfl : now = 0 := le_antisymm before zero
    exact le_rfl
  · rw [if_neg zero]
    exact Rat.le_ceil

/-- Rounding up gains the rest of the second, unless there is no fraction. -/
theorem ceil_eq (wait : ℚ) :
    (⌈wait⌉ : ℚ) = if Int.fract wait = 0 then wait else wait + 1 - Int.fract wait := by
  by_cases whole : Int.fract wait = 0
  · obtain ⟨n, rfl⟩ := Int.fract_eq_zero_iff.mp whole
    rw [if_pos whole, Int.ceil_intCast]
  · rw [if_neg whole, Int.ceil_eq_add_one_sub_fract whole]

/-- The instant is late enough exactly when the clock loses no more than the wait gains. -/
theorem le_truncate_add_ceil_iff (now wait : ℚ) :
    now + wait ≤ ((truncate now + ⌈wait⌉ : ℤ) : ℚ) ↔ Aligned now wait := by
  by_cases before : now ≤ 0
  · refine ⟨fun _ => .inl before, fun _ => ?_⟩
    rw [Int.cast_add]
    exact add_le_add (le_truncate before) (Int.le_ceil wait)
  · have floor : ((truncate now : ℤ) : ℚ) = now - Int.fract now := by
      have down : truncate now = ⌊now⌋ := if_pos (not_le.mp before).le
      rw [down, Int.self_sub_fract]
    have lost : 0 ≤ Int.fract now := Int.fract_nonneg now
    rw [Int.cast_add, floor, ceil_eq, Aligned]
    by_cases whole : Int.fract wait = 0
    · rw [if_pos whole]
      constructor
      · intro late
        exact .inr (.inl (by linarith))
      · rintro (early | exact | ⟨part, _⟩)
        · exact absurd early before
        · linarith
        · exact absurd whole part
    · rw [if_neg whole]
      have gained : Int.fract wait < 1 := Int.fract_lt_one wait
      constructor
      · intro late
        exact .inr (.inr ⟨whole, by linarith⟩)
      · rintro (early | exact | ⟨_, sum⟩)
        · exact absurd early before
        · linarith
        · linarith

/-- **When the headers never send a client back too early.** A request that the limiter
denies is refused, and both instants it is told are late enough exactly when the clock and the
wait are aligned: the clock reads a whole second, or the wait is not whole and the two
fractions of a second make no more than one. -/
theorem neverEarly_iff_aligned (limit : ℕ) (key : String)
    (hit : String → Except PyExc RateLimitResult) (now : ℚ) (result : RateLimitResult)
    (hits : hit key = .ok result) (denied : result.allowed = false) :
    ∃ h, dependency limit (some key) hit now = .refused h ∧
      (NeverEarly now result h ↔ Aligned now result.resetAfterSeconds) := by
  refine ⟨limitHeaders limit now result, ?_, ?_⟩
  · simp only [dependency, hits, denied, Bool.false_eq_true, if_false]
  · have delay : now + result.resetAfterSeconds ≤ now + (⌈result.resetAfterSeconds⌉ : ℚ) :=
      by linarith [Int.le_ceil result.resetAfterSeconds]
    rw [NeverEarly, ← le_truncate_add_ceil_iff]
    exact ⟨fun both => both.2, fun late => ⟨delay, late⟩⟩

/-- A denied hit that has three quarters of a second to wait. -/
def deniedResult : RateLimitResult :=
  { allowed := false, remaining := 0, resetAfterSeconds := 3 / 4, limit := 1 }

theorem aligned_quarter :
    ∃ h, dependency 1 (some "k") (fun _ => .ok deniedResult) (1700000000 + 1 / 4) = .refused h ∧
      (NeverEarly (1700000000 + 1 / 4) deniedResult h ↔ Aligned (1700000000 + 1 / 4) (3 / 4)) :=
  neverEarly_iff_aligned 1 "k" _ _ deniedResult rfl rfl

/-- **A client is sent back too early.** Half a second after a full second, the client is
told the next full second, a quarter of a second before the limiter admits again. -/
theorem reset_header_too_early :
    ∃ h, dependency 1 (some "k") (fun _ => .ok deniedResult) (1700000000 + 1 / 2) = .refused h ∧
      (h.reset : ℚ) < (1700000000 + 1 / 2) + deniedResult.resetAfterSeconds :=
  ⟨⟨1, 0, 1700000001, 1⟩, by decide +kernel, by decide +kernel⟩

/-! ## Whose bucket it is -/

/-- A caller: a subject is never an address. -/
inductive Caller where
  | subject (sub : String)
  | address (ip : String)
  deriving DecidableEq

def Caller.identity : Caller → String
  | .subject sub => sub
  | .address ip => ip

/-- Whether the caller is authenticated. -/
def Caller.isSubject : Caller → Bool
  | .subject _ => true
  | .address _ => false

/-- The caller of a request, if its identity can be resolved. -/
def Request.caller (request : Request) : Option Caller :=
  match request.user.bind User.sub with
  | some sub => some (.subject sub)
  | none => (clientIp request.scope).map .address

/-- The key is made from the caller's identity, whatever its kind. -/
theorem defaultKey_eq (request : Request) :
    defaultKey request = request.caller.map fun caller =>
      request.scope.method ++ ":" ++ request.path ++ ":" ++ caller.identity := by
  rw [defaultKey, Request.identity, Request.caller]
  cases request.user.bind User.sub with
  | some sub => rfl
  | none =>
      rw [Option.map_map]
      rfl

/-- Two callers of one kind are told apart by their identities. -/
theorem caller_eq_of_identity {first second : Caller} (identity : first.identity = second.identity)
    (kind : first.isSubject = second.isSubject) : first = second := by
  cases first with
  | subject sub =>
      cases second with
      | subject sub' => exact congrArg _ identity
      | address ip => cases kind
  | address ip =>
      cases second with
      | subject sub => cases kind
      | address ip' => exact congrArg _ identity

/-- How often a text holds the separator. -/
def colons (t : String) : ℕ := t.toList.count ':'

theorem keyText_toList (method path identity : String) :
    (method ++ ":" ++ path ++ ":" ++ identity).toList =
      [':'].intercalate [method.toList, path.toList, identity.toList] := by
  simp [List.intercalate]

/-- **Whom a bucket is shared by.** Two requests with a caller that have one key are counted in
one bucket. They have the same method, the same route path and the same caller exactly when
`:` occurs equally often in the methods and in the paths, and both callers are authenticated
or neither is. -/
theorem sameBucket_iff (first second : Request) (a b : Caller) (resolved : first.caller = some a)
    (resolved' : second.caller = some b) (same : defaultKey first = defaultKey second) :
    (first.scope.method = second.scope.method ∧ first.path = second.path ∧ a = b) ↔
      (colons first.scope.method = colons second.scope.method ∧
        colons first.path = colons second.path ∧ a.isSubject = b.isSubject) := by
  constructor
  · rintro ⟨method, path, rfl⟩
    rw [method, path]
    exact ⟨rfl, rfl, rfl⟩
  · rintro ⟨methods, paths, kind⟩
    rw [defaultKey_eq, defaultKey_eq, resolved, resolved', Option.map_some, Option.map_some,
      Option.some.injEq] at same
    have lists := congrArg String.toList same
    rw [keyText_toList, keyText_toList] at lists
    have counts : [first.scope.method.toList, first.path.toList].map (List.count ':') =
        [second.scope.method.toList, second.path.toList].map (List.count ':') :=
      congrArg₂ List.cons methods (congrArg₂ List.cons paths rfl)
    have parts := Separated.intercalate_inj_of_count lists rfl counts
    simp only [List.cons.injEq, String.toList_inj, and_true] at parts
    exact ⟨parts.1, parts.2.1, caller_eq_of_identity parts.2.2 kind⟩

/-- An anonymous request from an address. -/
def anonymous : Request :=
  { scope := { method := "GET", path := "/items", client := some ("10.0.0.7", 51000) }
    routePath := some "/items"
    urlPath := "/items"
    user := none }

/-- The same on another connection. -/
def reconnected : Request :=
  { anonymous with scope := { anonymous.scope with client := some ("10.0.0.7", 51001) } }

theorem one_address_one_bucket :
    anonymous.scope.method = reconnected.scope.method ∧ anonymous.path = reconnected.path ∧
      Caller.address "10.0.0.7" = .address "10.0.0.7" :=
  (sameBucket_iff anonymous reconnected (.address "10.0.0.7") (.address "10.0.0.7") rfl rfl
    rfl).mpr ⟨rfl, rfl, rfl⟩

/-- An authenticated request from elsewhere, whose subject is the text of that address. -/
def namesake : Request :=
  { anonymous with
    scope := { anonymous.scope with client := some ("192.0.2.1", 51000) }
    user := some ⟨some "10.0.0.7"⟩ }

/-- **A subject shares the bucket of an address.** -/
theorem subject_shares_bucket :
    ∃ a b, namesake.caller = some a ∧ anonymous.caller = some b ∧
      defaultKey namesake = defaultKey anonymous ∧ a ≠ b :=
  ⟨.subject "10.0.0.7", .address "10.0.0.7", rfl, rfl, rfl, by decide⟩

end PyCommon.RateLimitDep
