import PyCommon.Asgi

/-!
# Error codes and Problem Details

The registry of problem types and the Problem Details response that the
middleware answers with on its own account. The body of a response is kept as the
record it is rendered from; the JSON text is never inspected by the library.
-/

set_option autoImplicit false

namespace PyCommon

/-- Application-level error codes shared across services. -/
inductive ErrorCode where
  | ok
  | server
  | database
  | input
  | auth
  | appCheck
  | forbidden
  | notFound
  | conflict
  | rateLimit
  | timeout
  | payloadTooLarge
  | idempotency
  deriving DecidableEq

/-- `int(code)`. -/
def ErrorCode.toNat : ErrorCode → ℕ
  | .ok => 0
  | .server => 1
  | .database => 2
  | .input => 3
  | .auth => 4
  | .appCheck => 5
  | .forbidden => 6
  | .notFound => 7
  | .conflict => 8
  | .rateLimit => 9
  | .timeout => 10
  | .payloadTooLarge => 11
  | .idempotency => 12

/-- Canonical problem-type metadata; the description only feeds the HTML pages. -/
structure ProblemType where
  code : ErrorCode
  slug : String
  title : String
  statusCode : ℤ
  deriving DecidableEq

/-- `PROBLEM_TYPES.get(code)`. -/
def problemTypes : ErrorCode → Option ProblemType
  | .ok => none
  | .server => some ⟨.server, "server", "Server Error", 500⟩
  | .database => some ⟨.database, "database", "Database Error", 500⟩
  | .input => some ⟨.input, "input", "Input Error", 400⟩
  | .auth => some ⟨.auth, "authorization", "Authorization Error", 401⟩
  | .appCheck => some ⟨.appCheck, "app-check", "App Check Error", 403⟩
  | .forbidden => some ⟨.forbidden, "forbidden", "Forbidden", 403⟩
  | .notFound => some ⟨.notFound, "not-found", "Not Found", 404⟩
  | .conflict => some ⟨.conflict, "conflict", "Conflict", 409⟩
  | .rateLimit => some ⟨.rateLimit, "rate-limit", "Too Many Requests", 429⟩
  | .timeout => some ⟨.timeout, "timeout", "Gateway Timeout", 504⟩
  | .payloadTooLarge => some ⟨.payloadTooLarge, "payload-too-large", "Content Too Large", 413⟩
  | .idempotency => some ⟨.idempotency, "idempotency", "Idempotency Conflict", 409⟩

/-- `text.rstrip("/")`. -/
def rstripSlash (text : String) : String :=
  String.ofList (text.toList.reverse.dropWhile (· = '/')).reverse

/-- The RFC 9457 `type` URI of a code. `none` is the `ValueError` on `OK`. -/
def problemTypeUri (code : ErrorCode) (baseUrl : Option String) : Option String :=
  (problemTypes code).map fun problem =>
    match baseUrl with
    | some base =>
        if base = "" then "/problems/" ++ problem.slug
        else rstripSlash base ++ "/" ++ problem.slug
    | none => "/problems/" ++ problem.slug

/-- Every code but `OK` has a `type` URI. -/
theorem problemTypeUri_eq_none {code : ErrorCode} {baseUrl : Option String} :
    problemTypeUri code baseUrl = none ↔ code = .ok := by
  rw [problemTypeUri, Option.map_eq_none_iff]
  cases code <;> simp only [problemTypes, reduceCtorEq]

theorem isSome_problemTypeUri {code : ErrorCode} (error : code ≠ .ok) (baseUrl : Option String) :
    (problemTypeUri code baseUrl).isSome :=
  Option.isSome_iff_ne_none.mpr (mt problemTypeUri_eq_none.mp error)

/-- `problem_type_uri`, which raises for `OK` alone. -/
def errorTypeUri {code : ErrorCode} (error : code ≠ .ok) (baseUrl : Option String) : String :=
  (problemTypeUri code baseUrl).get (isSome_problemTypeUri error baseUrl)

structure ProblemDetail where
  type : String
  title : String
  status : ℤ
  detail : Option String := none
  instance_ : Option String := none
  errorCode : Option ℕ := none
  requestId : Option String := none
  serverTime : ℕ
  deriving DecidableEq

/-! ## Responses -/

/-- What a response takes from its surroundings: the JSON text of a record, and the
reading of `int(time.time())` while it is built. -/
structure Rendering where
  render : ProblemDetail → Bytes
  serverTime : ℕ

/-- The messages that a `JSONResponse` without headers of its own sends. -/
def jsonResponse (statusCode : ℤ) (body : Bytes) (mediaType : String) : List SendMessage :=
  [.start statusCode [(encode "content-length", encode (toString body.length)),
    (encode "content-type", encode mediaType)], .body body false]

/-- `problem_response`, as the middleware calls it on a connection. -/
def problemResponse (rendering : Rendering) (scope : Scope) (code : ErrorCode) (error : code ≠ .ok)
    (title : String) (statusCode : ℤ) (detail : String) (requestId : Option String) :
    List SendMessage :=
  let body := rendering.render
    { type := errorTypeUri error scope.problemTypeBaseUrl
      title
      status := statusCode
      detail := some detail
      instance_ := some scope.path
      errorCode := some code.toNat
      requestId
      serverTime := rendering.serverTime }
  jsonResponse statusCode body "application/problem+json"

end PyCommon
