import PyCommon.Http.JsonResponse
import PyCommon.Http.RequestIds
import PyCommon.Lib.Outcomes

/-!
# Exception handlers

The handlers that `register_exception_handlers` registers for `AppError`, for
`RequestValidationError` and for `HTTPException`. Each renders data that it does not
control through functions that are not total: the phrase of a status, the JSON text of an
object, the Latin-1 encoding of a header.

`handled_iff` says of every exception when it is answered as the error contract has it. A
validation error is not when an input is a NaN or an object that is not JSON: the handler
drops the `ctx` of an error and keeps its `input` (`nan_input_raises`). An `HTTPException`
is not when its status is below 500 and neither has an error code nor is an `HTTPStatus`
(`unregistered_status_raises`), when `str` of its detail raises, or when it has a
`Content-Type` of its own. And no exception is when the `Host` header leaves the request
without a URL.
-/

set_option autoImplicit false

namespace PyCommon.ErrorHandlers

open CodePoints (Text text)
open JsonResponse RequestIds

/-! ## Exceptions -/

/-- The `dict` of an error: its keys are strings, each only once. -/
abbrev Entry := List (Text × PyObject)

/-- `AppError(detail, error_code=…, title=…, type_=…, errors=…)`. -/
structure AppError where
  detail : Option Text := none
  errorCode : ErrorCode := .server
  givenTitle : Option Text := none
  type_ : Option Text := none
  errors : Option (List Entry) := none

/-- `exc.status_code`. -/
def AppError.statusCode (exc : AppError) : ℤ :=
  match problemTypes exc.errorCode with
  | some problem => problem.statusCode
  | none => 500

/-- `exc.title`. -/
def AppError.title (exc : AppError) : Text :=
  match exc.givenTitle, problemTypes exc.errorCode with
  | some title, _ => title
  | none, some problem => text problem.title
  | none, none => text "Server Error"

/-- An `HTTPException`, whose `detail` is any object. -/
structure HTTPException where
  statusCode : ℤ
  detail : PyObject := .null
  headers : List (Text × Text) := []

/-- An exception for which a handler is registered, short of the last resort. -/
inductive Exc where
  | app (exc : AppError)
  | validation (errors : List Entry)
  | http (exc : HTTPException)

/-! ## The response -/

/-- What the handlers take from the interpreter: how deep containers may be nested beyond
those that a handler builds, `str.lower`, the `str` of an object that is neither a string
nor an integer, which may raise, and the clock. -/
structure Platform where
  room : ℕ
  lower : Text → Text
  str : PyObject → Except Failure Text
  serverTime : ℕ
  serverTime_short : Short serverTime

/-- A request. The URL is put together from the `Host` header and taken apart again, so that
`request.url.path` raises a `ValueError` for a host such as `[`. -/
structure Request where
  bindings : Bindings
  urlPath : Except Failure String

def Request.problemTypeBaseUrl (request : Request) : Option String :=
  request.bindings.scope.problemTypeBaseUrl

/-- `logger.exception(…, path=request.url.path)`, for the status of a server error. -/
def Request.logged (request : Request) (statusCode : ℤ) : Except Failure Unit :=
  if 500 ≤ statusCode then request.urlPath.map fun _ => () else .ok ()

/-- An error as the object it is. -/
def entryObject (entry : Entry) : PyObject :=
  .dict (entry.map fun member => (.str member.1, member.2))

/-- The arguments of `problem_response`. -/
structure Problem where
  title : Text
  statusCode : ℤ
  detail : Option Text := none
  instance_ : String
  type_ : Text
  errors : Option (List Entry) := none
  errorCode : Option ErrorCode := none
  requestId : Option String := none
  headers : List (Text × Text) := []

/-- The fields of `ProblemDetail`. -/
def Problem.fields (problem : Problem) (serverTime : ℤ) : List (String × Option PyObject) :=
  [("type", some (.str problem.type_)),
    ("title", some (.str problem.title)),
    ("status", some (.int problem.statusCode)),
    ("detail", problem.detail.map .str),
    ("instance", some (.str (text problem.instance_))),
    ("errors", problem.errors.map fun entries => .list (entries.map entryObject)),
    ("error_code", problem.errorCode.map fun code => .int code.toNat),
    ("request_id", problem.requestId.map fun id => .str (text id)),
    ("server_time", some (.int serverTime))]

/-- `model_dump(exclude_none=True)`. -/
def dumped (fields : List (String × Option PyObject)) : List (PyObject × PyObject) :=
  fields.filterMap fun field => field.2.map fun value => (.str (text field.1), value)

/-- `problem_response`. The problem, the list of its errors, an error and the `loc` of that
are the containers that the handlers build. -/
def problemResponse (platform : Platform) (problem : Problem) : Except Failure Response :=
  JsonResponse.create (platform.room + 4) platform.lower problem.statusCode
    (.dict (dumped (problem.fields platform.serverTime))) "application/problem+json"
    problem.headers

/-! ## The handlers -/

/-- `problem_type_uri`. -/
def typeUri (code : ErrorCode) (baseUrl : Option String) : Except Failure Text :=
  match problemTypeUri code baseUrl with
  | some uri => .ok (text uri)
  | none => .error .valueError

/-- `resolve_type`. -/
def AppError.resolveType (exc : AppError) (baseUrl : Option String) : Except Failure Text :=
  match exc.type_ with
  | some type_ => .ok type_
  | none =>
      if exc.errorCode = .ok then .ok (text "about:blank") else typeUri exc.errorCode baseUrl

def appErrorHandler (platform : Platform) (request : Request) (exc : AppError) :
    Except Failure Response := do
  request.logged exc.statusCode
  let path ← request.urlPath
  let type_ ← exc.resolveType request.problemTypeBaseUrl
  problemResponse platform
    { title := exc.title
      statusCode := exc.statusCode
      detail := exc.detail
      instance_ := path
      type_
      errors := exc.errors
      errorCode := some exc.errorCode
      requestId := request.bindings.requestId }

/-- `str` of an object. -/
def Platform.strOf (platform : Platform) : PyObject → Except Failure Text
  | .str content => .ok content
  | .int n => writeInt n
  | object => platform.str object

/-- A member of an error, with the parts of a `loc` as strings. -/
def normalized (platform : Platform) (member : Text × PyObject) :
    Except Failure (Text × PyObject) :=
  match member.2 with
  | .list parts =>
      if member.1 = text "loc" then do
        let parts ← parts.mapM platform.strOf
        return (member.1, .list (parts.map .str))
      else .ok member
  | _ => .ok member

/-- `_validation_errors`. -/
def validationErrors (platform : Platform) (errors : List Entry) : Except Failure (List Entry) :=
  errors.mapM fun error =>
    (error.filter fun member => member.1 ≠ text "ctx").mapM (normalized platform)

def validationExceptionHandler (platform : Platform) (request : Request) (errors : List Entry) :
    Except Failure Response := do
  let problem := (problemTypes .input).get rfl
  let path ← request.urlPath
  let type_ ← typeUri .input request.problemTypeBaseUrl
  let errors ← validationErrors platform errors
  problemResponse platform
    { title := text problem.title
      statusCode := 422
      detail := some (text "Request validation failed")
      instance_ := path
      type_
      errors := some errors
      errorCode := some .input
      requestId := request.bindings.requestId }

def statusToErrorCode : List (ℤ × ErrorCode) :=
  [(400, .input), (401, .auth), (403, .forbidden), (404, .notFound), (409, .conflict),
    (422, .input), (429, .rateLimit), (413, .payloadTooLarge), (504, .timeout)]

def errorCodeForStatus (statusCode : ℤ) : Option ErrorCode :=
  match statusToErrorCode.lookup statusCode with
  | some code => some code
  | none => if 500 ≤ statusCode then some .server else none

/-- The members of `http.HTTPStatus` with their phrases. -/
def phrases : List (ℤ × String) :=
  [(100, "Continue"), (101, "Switching Protocols"), (102, "Processing"), (103, "Early Hints"),
    (200, "OK"), (201, "Created"), (202, "Accepted"), (203, "Non-Authoritative Information"),
    (204, "No Content"), (205, "Reset Content"), (206, "Partial Content"), (207, "Multi-Status"),
    (208, "Already Reported"), (226, "IM Used"), (300, "Multiple Choices"),
    (301, "Moved Permanently"), (302, "Found"), (303, "See Other"), (304, "Not Modified"),
    (305, "Use Proxy"), (307, "Temporary Redirect"), (308, "Permanent Redirect"),
    (400, "Bad Request"), (401, "Unauthorized"), (402, "Payment Required"), (403, "Forbidden"),
    (404, "Not Found"), (405, "Method Not Allowed"), (406, "Not Acceptable"),
    (407, "Proxy Authentication Required"), (408, "Request Timeout"), (409, "Conflict"),
    (410, "Gone"), (411, "Length Required"), (412, "Precondition Failed"),
    (413, "Content Too Large"), (414, "URI Too Long"), (415, "Unsupported Media Type"),
    (416, "Range Not Satisfiable"), (417, "Expectation Failed"), (418, "I'm a Teapot"),
    (421, "Misdirected Request"), (422, "Unprocessable Content"), (423, "Locked"),
    (424, "Failed Dependency"), (425, "Too Early"), (426, "Upgrade Required"),
    (428, "Precondition Required"), (429, "Too Many Requests"),
    (431, "Request Header Fields Too Large"), (451, "Unavailable For Legal Reasons"),
    (500, "Internal Server Error"), (501, "Not Implemented"), (502, "Bad Gateway"),
    (503, "Service Unavailable"), (504, "Gateway Timeout"), (505, "HTTP Version Not Supported"),
    (506, "Variant Also Negotiates"), (507, "Insufficient Storage"), (508, "Loop Detected"),
    (510, "Not Extended"), (511, "Network Authentication Required")]

/-- The title and the type of the answer to an `HTTPException`. -/
def HTTPException.titleAndType (exc : HTTPException) (baseUrl : Option String) :
    Except Failure (Text × Text) :=
  match (errorCodeForStatus exc.statusCode).bind problemTypes with
  | some problem => do
      let type_ ← typeUri problem.code baseUrl
      return (text problem.title, type_)
  | none =>
      match phrases.lookup exc.statusCode with
      | some phrase => .ok (text phrase, text "about:blank")
      | none => .error .valueError

/-- `str(exc.detail) if exc.detail is not None else None`. -/
def HTTPException.detailText (platform : Platform) (exc : HTTPException) :
    Except Failure (Option Text) :=
  match exc.detail with
  | .null => .ok none
  | detail => do
      let content ← platform.strOf detail
      return some content

def httpExceptionHandler (platform : Platform) (request : Request) (exc : HTTPException) :
    Except Failure Response := do
  let (title, type_) ← exc.titleAndType request.problemTypeBaseUrl
  request.logged exc.statusCode
  let detail ← exc.detailText platform
  let path ← request.urlPath
  problemResponse platform
    { title
      statusCode := exc.statusCode
      detail
      instance_ := path
      type_
      errorCode := errorCodeForStatus exc.statusCode
      requestId := request.bindings.requestId
      headers := exc.headers }

def handle (platform : Platform) (request : Request) : Exc → Except Failure Response
  | .app exc => appErrorHandler platform request exc
  | .validation errors => validationExceptionHandler platform request errors
  | .http exc => httpExceptionHandler platform request exc

/-! ## The contract -/

/-- The status an exception is mapped to. -/
def Exc.status : Exc → ℤ
  | .app exc => exc.statusCode
  | .validation _ => 422
  | .http exc => exc.statusCode

/-- The headers of an exception's own. -/
def Exc.headers : Exc → List (Text × Text)
  | .http exc => exc.headers
  | _ => []

/-- The answer the contract has for a status and headers. -/
structure Answers (platform : Platform) (statusCode : ℤ) (own : List (Text × Text))
    (response : Response) : Prop where
  status : response.statusCode = statusCode
  member : ∃ members, render (platform.room + 4) (.dict members) = .ok response.body ∧
    ∀ value, (.str (text "status"), value) ∈ members ↔ value = .int statusCode
  mediaType : ∀ value, (contentType, value) ∈ response.headers ↔
    value = encode "application/problem+json"
  preserved : ∀ header ∈ own, ∃ name value,
    JsonResponse.encodeLatin1 (platform.lower header.1) = .ok name ∧
    JsonResponse.encodeLatin1 header.2 = .ok value ∧ (name, value) ∈ response.headers

/-- The handler does not raise, and answers as the contract has it. -/
def Handled (platform : Platform) (request : Request) (exc : Exc) : Prop :=
  ∃ response, handle platform request exc = .ok response ∧
    Answers platform exc.status exc.headers response

/-- What the contract is about: any `AppError` with errors that are JSON, any validation
error, and any `HTTPException` with the status of an error. -/
def Exc.Covered (platform : Platform) : Exc → Prop
  | .app exc => ∀ entries ∈ exc.errors, ∀ entry ∈ entries,
      Serializable (platform.room + 2) (entryObject entry)
  | .validation _ => True
  | .http exc => 400 ≤ exc.statusCode

/-- A member of a validation error, but its `ctx`, that can be shown: the parts of a `loc`
as strings, and anything else as JSON. -/
def Shown (platform : Platform) (member : Text × PyObject) : Prop :=
  match member.2 with
  | .list parts =>
      if member.1 = text "loc" then
        ∀ part ∈ parts, ∃ content, platform.strOf part = .ok content ∧ Encodable content
      else Serializable (platform.room + 1) (.list parts)
  | value => Serializable (platform.room + 1) value

/-- A status that has an error code or is an `HTTPStatus`. -/
def Known (statusCode : ℤ) : Prop :=
  (errorCodeForStatus statusCode).isSome ∨ (phrases.lookup statusCode).isSome

/-- A header that can be sent, and is no other media type. -/
def Sendable (platform : Platform) (header : Text × Text) : Prop :=
  Latin1 (platform.lower header.1) ∧ Latin1 header.2 ∧
    (platform.lower header.1 = text "content-type" → header.2 = text "application/problem+json")

/-- The URL of the request has a path. -/
def Request.Located (request : Request) : Prop := ∃ path, request.urlPath = .ok path

/-- The data of an exception that its handler can render. -/
def Exc.Presentable (platform : Platform) : Exc → Prop
  | .app exc => (∀ title ∈ exc.givenTitle, Encodable title) ∧
      (∀ type_ ∈ exc.type_, Encodable type_) ∧ ∀ detail ∈ exc.detail, Encodable detail
  | .validation errors => ∀ entry ∈ errors, ∀ member ∈ entry, member.1 ≠ text "ctx" →
      Encodable member.1 ∧ Shown platform member
  | .http exc => Known exc.statusCode ∧ Short exc.statusCode ∧
      (exc.detail = .null ∨
        ∃ content, platform.strOf exc.detail = .ok content ∧ Encodable content) ∧
      ∀ header ∈ exc.headers, Sendable platform header

/-! ## Problems -/

/-- The data of a problem that can be rendered. -/
structure Problem.Presentable (platform : Platform) (problem : Problem) : Prop where
  title : Encodable problem.title
  statusCode : Short problem.statusCode
  detail : ∀ detail ∈ problem.detail, Encodable detail
  type_ : Encodable problem.type_
  errors : ∀ entries ∈ problem.errors, ∀ entry ∈ entries,
    Serializable (platform.room + 2) (entryObject entry)
  headers : ∀ header ∈ problem.headers, Sendable platform header

theorem short_toNat (code : ErrorCode) : Short code.toNat := by
  have digits : ∀ n < 13, (Nat.toDigits 10 n).length ≤ Pagination.maxStrDigits := by decide
  have small : code.toNat < 13 := by cases code <;> decide
  exact digits code.toNat small

theorem serializable_dumped {room : ℕ} {fields : List (String × Option PyObject)} :
    Serializable (room + 1) (.dict (dumped fields)) ↔
      ∀ field ∈ fields, ∀ value ∈ field.2, Serializable room value := by
  rw [Serializable, serializableMembers_iff]
  constructor
  · intro members field member value there
    have dumpedField : (.str (text field.1), value) ∈ dumped fields := by
      rw [dumped, List.mem_filterMap]
      exact ⟨field, member, by rw [there]; rfl⟩
    exact (members _ dumpedField).2
  · intro each pair member
    obtain ⟨field, there, made⟩ := List.mem_filterMap.mp member
    obtain ⟨value, present, rfl⟩ := Option.map_eq_some_iff.mp made
    exact ⟨encodable_text field.1, each field there value present⟩

theorem serializable_errors {room : ℕ} {entries : List Entry} :
    Serializable (room + 3) (.list (entries.map entryObject)) ↔
      ∀ entry ∈ entries, Serializable (room + 2) (entryObject entry) := by
  rw [Serializable, serializableItems_iff, List.forall_mem_map]

/-- **What a problem is rendered from.** -/
theorem serializable_fields {platform : Platform} {problem : Problem} :
    (∀ field ∈ problem.fields platform.serverTime, ∀ value ∈ field.2,
        Serializable (platform.room + 3) value) ↔
      Encodable problem.type_ ∧ Encodable problem.title ∧ Short problem.statusCode ∧
        (∀ detail ∈ problem.detail, Encodable detail) ∧
          ∀ entries ∈ problem.errors, ∀ entry ∈ entries,
            Serializable (platform.room + 2) (entryObject entry) := by
  have str : ∀ content, Serializable (platform.room + 3) (.str content) ↔ Encodable content :=
    fun content => by rw [Serializable]
  have int : ∀ n, Serializable (platform.room + 3) (.int n) ↔ Short n :=
    fun n => by rw [Serializable]
  simp only [Problem.fields, List.forall_mem_cons, Option.forall_mem_map,
    Option.mem_some_iff, forall_eq', str, int, serializable_errors, encodable_text, short_toNat,
    platform.serverTime_short]
  simp

theorem mem_dumped_status {problem : Problem} {serverTime : ℤ} {value : PyObject} :
    (.str (text "status"), value) ∈ dumped (problem.fields serverTime) ↔
      value = .int problem.statusCode := by
  rw [dumped, List.mem_filterMap]
  constructor
  · rintro ⟨⟨name, content⟩, member, made⟩
    obtain ⟨shown, present, same⟩ := Option.map_eq_some_iff.mp made
    obtain ⟨key, rfl⟩ := Prod.mk.inj same
    obtain rfl : name = "status" := CodePoints.text_injective (PyObject.str.inj key)
    have status : content = some (.int problem.statusCode) := by
      simpa [Problem.fields] using member
    exact Option.some.inj (present.symm.trans status)
  · rintro rfl
    exact ⟨("status", some (.int problem.statusCode)), by simp [Problem.fields], rfl⟩

/-- The headers of a problem that can be sent are those of its response, and its media type
is that of a problem. -/
theorem sendable_iff {platform : Platform} {statusCode : ℤ} {body : Bytes}
    {headers : List (Text × Text)} {own : List (Bytes × Bytes)}
    (encoded : rawHeaders platform.lower headers = .ok own) :
    (∀ value, (contentType, value) ∈ own ++
        addedHeaders statusCode body "application/problem+json" own ↔
          value = encode "application/problem+json") ↔
      ∀ header ∈ headers, Sendable platform header := by
  obtain ⟨latin1, rfl⟩ := rawHeaders_eq_ok.mp encoded
  have name : Latin1 (text "content-type") ∧
      contentType = (text "content-type").map UInt8.ofNat := by decide
  have value : Latin1 (text "application/problem+json") ∧
      encode "application/problem+json" = (text "application/problem+json").map UInt8.ofNat := by
    decide
  rw [mediaType_iff]
  constructor
  · intro only header member
    refine ⟨(latin1 header member).1, (latin1 header member).2, fun same => ?_⟩
    have sent : (contentType, header.2.map UInt8.ofNat) ∈
        headers.map (rawHeader platform.lower) := by
      rw [name.2, ← same]
      exact List.mem_map_of_mem member
    refine (latin1 header member).2.eq_of_map_eq value.1 ?_
    rw [only _ sent, value.2]
  · intro sendable raw member
    obtain ⟨header, given, same⟩ := List.mem_map.mp member
    obtain ⟨named, rfl⟩ := Prod.mk.inj same
    rw [name.2] at named
    have typed := (latin1 header given).1.eq_of_map_eq name.1 named
    rw [(sendable header given).2.2 typed, value.2]

/-- **When a problem is answered.** -/
theorem answered_iff {platform : Platform} {problem : Problem} :
    (∃ response, problemResponse platform problem = .ok response ∧
        Answers platform problem.statusCode problem.headers response) ↔
      problem.Presentable platform := by
  have rendered : (∃ body, render (platform.room + 4)
      (.dict (dumped (problem.fields platform.serverTime))) = .ok body) ↔ _ :=
    rendered_iff.trans (serializable_dumped.trans serializable_fields)
  constructor
  · rintro ⟨response, made, answers⟩
    obtain ⟨body, written, own, encoded, rfl⟩ := create_eq_ok.mp made
    obtain ⟨type_, title, statusCode, detail, errors⟩ := rendered.mp ⟨body, written⟩
    exact ⟨title, statusCode, detail, type_, errors, (sendable_iff encoded).mp answers.mediaType⟩
  · intro presentable
    obtain ⟨body, written⟩ := rendered.mpr ⟨presentable.type_, presentable.title,
      presentable.statusCode, presentable.detail, presentable.errors⟩
    have encoded : rawHeaders platform.lower problem.headers =
        .ok (problem.headers.map (rawHeader platform.lower)) := by
      refine rawHeaders_eq_ok.mpr ⟨fun header member => ?_, rfl⟩
      obtain ⟨name, value, -⟩ := presentable.headers header member
      exact ⟨name, value⟩
    refine ⟨_, create_eq_ok.mpr ⟨body, written, _, encoded, rfl⟩, rfl, ⟨_, written, ?_⟩, ?_, ?_⟩
    · exact fun _ => mem_dumped_status
    · exact (sendable_iff encoded).mpr presentable.headers
    · intro header member
      obtain ⟨name, value, -⟩ := presentable.headers header member
      refine ⟨_, _, encodeLatin1_eq_ok.mpr ⟨name, rfl⟩, encodeLatin1_eq_ok.mpr ⟨value, rfl⟩, ?_⟩
      exact List.mem_append_left _ (List.mem_map_of_mem member)

/-! ## The problems of the middleware -/

/-- The fields of a record that a middleware renders. -/
def recordFields (record : ProblemDetail) : List (String × Option PyObject) :=
  [("type", some (.str (text record.type))),
    ("title", some (.str (text record.title))),
    ("status", some (.int record.status)),
    ("detail", record.detail.map fun detail => .str (text detail)),
    ("instance", record.instance_.map fun path => .str (text path)),
    ("errors", none),
    ("error_code", record.errorCode.map fun code => .int code),
    ("request_id", record.requestId.map fun id => .str (text id)),
    ("server_time", some (.int record.serverTime))]

/-- How the responses of the middleware are rendered. -/
def Platform.rendering (platform : Platform) : Rendering where
  render record :=
    match render (platform.room + 4) (.dict (dumped (recordFields record))) with
    | .ok body => body
    | .error _ => []
  serverTime := platform.serverTime

/-- What a middleware gives `problem_response`. -/
def problemOf (scope : Scope) {code : ErrorCode} (error : code ≠ .ok) (title : String)
    (statusCode : ℤ) (detail : String) (requestId : Option String) : Problem where
  title := text title
  statusCode
  detail := some (text detail)
  instance_ := scope.path
  type_ := text (errorTypeUri error scope.problemTypeBaseUrl)
  errorCode := some code
  requestId

/-- The record is of the same fields as the problem. -/
theorem fields_problemOf (scope : Scope) {code : ErrorCode} (error : code ≠ .ok) (title : String)
    (statusCode : ℤ) (detail : String) (requestId : Option String) (serverTime : ℕ) :
    (problemOf scope error title statusCode detail requestId).fields serverTime =
      recordFields
        { type := errorTypeUri error scope.problemTypeBaseUrl
          title
          status := statusCode
          detail := some detail
          instance_ := some scope.path
          errorCode := some code.toNat
          requestId
          serverTime } := rfl

/-- **The middleware answer with `problem_response`.** What they send on their own account are
the messages of the response that it makes of the same arguments. -/
theorem problemResponse_eq_messages (platform : Platform) (scope : Scope) {code : ErrorCode}
    (error : code ≠ .ok) (title : String) {statusCode : ℤ} (detail : String)
    (requestId : Option String) (short : Short statusCode)
    (framed : 200 ≤ statusCode ∧ statusCode ≠ 204 ∧ statusCode ≠ 304) :
    ∃ response,
      problemResponse platform (problemOf scope error title statusCode detail requestId)
          = .ok response ∧
        response.messages = PyCommon.problemResponse platform.rendering scope code error title
          statusCode detail requestId := by
  have presentable :
      (problemOf scope error title statusCode detail requestId).Presentable platform :=
    { title := encodable_text title
      statusCode := short
      detail := fun _ given => Option.some.inj given ▸ encodable_text detail
      type_ := encodable_text _
      errors := fun entries given => by cases given
      headers := List.forall_mem_nil _ }
  obtain ⟨response, made, -⟩ := answered_iff.mpr presentable
  refine ⟨response, made, ?_⟩
  obtain ⟨body, rendered, own, encoded, rfl⟩ := create_eq_ok.mp made
  obtain rfl := Except.ok.inj encoded
  rw [fields_problemOf] at rendered
  obtain ⟨final, content, modified⟩ := framed
  have early : ¬ statusCode < 200 := by omega
  have added : addedHeaders statusCode body "application/problem+json" [] =
      [(encode "content-length", encode (toString body.length)),
        (encode "content-type", encode "application/problem+json")] := by
    simp [addedHeaders, early, content, modified, contentLength, contentType]
  simp only [PyCommon.problemResponse, Platform.rendering, rendered, Response.messages,
    jsonResponse, problemOf, List.reverse_nil, added, List.nil_append]

/-! ## The three handlers -/

theorem typeUri_eq_ok {code : ErrorCode} (error : code ≠ .ok) (baseUrl : Option String) :
    ∃ uri, typeUri code baseUrl = .ok (text uri) := by
  obtain ⟨uri, found⟩ := Option.isSome_iff_exists.mp (isSome_problemTypeUri error baseUrl)
  exact ⟨uri, by rw [typeUri, found]⟩

theorem AppError.resolveType_eq_ok (exc : AppError) (baseUrl : Option String) :
    ∃ type_, exc.resolveType baseUrl = .ok type_ ∧
      (Encodable type_ ↔ ∀ given ∈ exc.type_, Encodable given) := by
  unfold AppError.resolveType
  cases exc.type_ with
  | some given => exact ⟨given, rfl, by simp⟩
  | none =>
      by_cases ok : exc.errorCode = .ok
      · exact ⟨_, if_pos ok, by simp [encodable_text]⟩
      · obtain ⟨uri, resolved⟩ := typeUri_eq_ok ok baseUrl
        exact ⟨text uri, by simp only [if_neg ok, resolved], by simp [encodable_text]⟩

theorem AppError.encodable_title {exc : AppError} :
    Encodable exc.title ↔ ∀ given ∈ exc.givenTitle, Encodable given := by
  unfold AppError.title
  cases exc.givenTitle with
  | some given => simp
  | none =>
      cases problemTypes exc.errorCode with
      | some problem => simp [encodable_text]
      | none => simp [encodable_text]

theorem AppError.short_statusCode (exc : AppError) : Short exc.statusCode := by
  unfold AppError.statusCode
  cases exc.errorCode with
  | _ => decide

/-- Nothing is answered to a request whose URL cannot be taken apart. -/
theorem not_handled_of_error {platform : Platform} {request : Request} {exc : Exc} {e : Failure}
    (broken : request.urlPath = .error e) : ¬ Handled platform request exc := by
  rintro ⟨response, answered, -⟩
  obtain ⟨path, found⟩ : request.Located := by
    cases exc with
    | app exc =>
        obtain ⟨-, -, answered⟩ := Outcome.bind_eq_ok.mp answered
        obtain ⟨path, found, -⟩ := Outcome.bind_eq_ok.mp answered
        exact ⟨path, found⟩
    | validation errors =>
        obtain ⟨path, found, -⟩ := Outcome.bind_eq_ok.mp answered
        exact ⟨path, found⟩
    | http exc =>
        obtain ⟨⟨title, type_⟩, -, answered⟩ := Outcome.bind_eq_ok.mp answered
        obtain ⟨-, -, answered⟩ := Outcome.bind_eq_ok.mp answered
        obtain ⟨detail, -, answered⟩ := Outcome.bind_eq_ok.mp answered
        obtain ⟨path, found, -⟩ := Outcome.bind_eq_ok.mp answered
        exact ⟨path, found⟩
  cases broken.symm.trans found

theorem logged_eq_ok {request : Request} {path : String} (located : request.urlPath = .ok path)
    (statusCode : ℤ) : request.logged statusCode = .ok () := by
  unfold Request.logged
  split
  · rw [located]
    rfl
  · rfl

theorem handled_app {platform : Platform} {request : Request} {exc : AppError}
    {path : String} (located : request.urlPath = .ok path)
    (covered : (Exc.app exc).Covered platform) :
    Handled platform request (.app exc) ↔ (Exc.app exc).Presentable platform := by
  obtain ⟨type_, resolved, encodable⟩ := exc.resolveType_eq_ok request.problemTypeBaseUrl
  simp only [Handled, handle, appErrorHandler, logged_eq_ok located, located, resolved, ok_bind]
  refine answered_iff.trans ?_
  constructor
  · intro presentable
    exact ⟨AppError.encodable_title.mp presentable.title, encodable.mp presentable.type_,
      presentable.detail⟩
  · rintro ⟨title, given, detail⟩
    exact ⟨AppError.encodable_title.mpr title, exc.short_statusCode, detail, encodable.mpr given,
      covered, List.forall_mem_nil _⟩

theorem serializable_entry {room : ℕ} {entry : Entry} :
    Serializable (room + 2) (entryObject entry) ↔
      ∀ member ∈ entry, Encodable member.1 ∧ Serializable (room + 1) member.2 := by
  rw [entryObject, Serializable, serializableMembers_iff, List.forall_mem_map]
  rfl

theorem serializable_parts {room : ℕ} {parts : List Text} :
    Serializable (room + 1) (.list (parts.map .str)) ↔ ∀ content ∈ parts, Encodable content := by
  rw [Serializable, serializableItems_iff, List.forall_mem_map]
  simp only [Serializable]

/-- **What can be shown of a validation error.** -/
theorem normalized_iff {platform : Platform} {member : Text × PyObject} :
    (∃ shown, normalized platform member = .ok shown ∧ Encodable shown.1 ∧
        Serializable (platform.room + 1) shown.2) ↔
      Encodable member.1 ∧ Shown platform member := by
  have kept : (∃ shown, (.ok member : Except Failure (Text × PyObject)) = .ok shown ∧
      Encodable shown.1 ∧ Serializable (platform.room + 1) shown.2) ↔
        Encodable member.1 ∧ Serializable (platform.room + 1) member.2 := by
    constructor
    · rintro ⟨shown, same, fit⟩
      obtain rfl := Except.ok.inj same
      exact fit
    · intro fit
      exact ⟨member, rfl, fit⟩
  obtain ⟨name, value⟩ := member
  cases value with
  | list parts =>
      by_cases loc : name = text "loc"
      · simp only [normalized, Shown, loc, if_true]
        rw [← exists_mapM_iff]
        constructor
        · rintro ⟨shown, made, named, fit⟩
          cases written : parts.mapM platform.strOf with
          | error e =>
              rw [written] at made
              cases made
          | ok contents =>
              rw [written] at made
              obtain rfl := Except.ok.inj made
              exact ⟨named, contents, rfl, serializable_parts.mp fit⟩
        · rintro ⟨named, contents, written, fit⟩
          rw [written]
          exact ⟨_, rfl, named, serializable_parts.mpr fit⟩
      · simp only [normalized, Shown, loc, if_false]
        exact kept
  | _ => exact kept

theorem handled_validation {platform : Platform} {request : Request} {errors : List Entry}
    {path : String} (located : request.urlPath = .ok path) :
    Handled platform request (.validation errors) ↔
      (Exc.validation errors).Presentable platform := by
  have input : ErrorCode.input ≠ .ok := by decide
  obtain ⟨uri, resolved⟩ := typeUri_eq_ok input request.problemTypeBaseUrl
  have shown : (∃ entries, validationErrors platform errors = .ok entries ∧
      ∀ entry ∈ entries, Serializable (platform.room + 2) (entryObject entry)) ↔
        (Exc.validation errors).Presentable platform := by
    simp only [validationErrors, exists_mapM_iff, serializable_entry, normalized_iff,
      List.mem_filter, decide_eq_true_eq, and_imp]
    rfl
  rw [← shown]
  simp only [Handled, handle, validationExceptionHandler, located, resolved, ok_bind]
  cases validationErrors platform errors with
  | error e =>
      constructor
      · rintro ⟨response, made, -⟩
        cases made
      · rintro ⟨entries, made, -⟩
        cases made
  | ok entries =>
      simp only [ok_bind]
      refine answered_iff.trans ?_
      constructor
      · intro presentable
        exact ⟨entries, rfl, presentable.errors entries rfl⟩
      · rintro ⟨_, made, fit⟩
        obtain rfl := Except.ok.inj made
        have unprocessable : Short 422 := by decide
        refine ⟨encodable_text _, unprocessable, ?_, encodable_text _, ?_, List.forall_mem_nil _⟩
        · simp [encodable_text]
        · simpa using fit

/-- Every error code of a status has a problem type. -/
theorem problemTypes_of_status {statusCode : ℤ} {code : ErrorCode}
    (found : errorCodeForStatus statusCode = some code) :
    ∃ problem, problemTypes code = some problem ∧ problem.code ≠ .ok := by
  have proper : code ≠ .ok := by
    have listed : ∀ pair ∈ statusToErrorCode, pair.2 ≠ .ok := by decide
    unfold errorCodeForStatus at found
    split at found
    · rename_i other there
      obtain rfl := Option.some.inj found
      obtain ⟨before, after, split, -⟩ := List.lookup_eq_some_iff.mp there
      refine listed (statusCode, other) ?_
      rw [split]
      exact List.mem_append_right before List.mem_cons_self
    · split at found
      · obtain rfl := Option.some.inj found
        decide
      · cases found
  cases code with
  | ok => exact absurd rfl proper
  | _ => exact ⟨_, rfl, by decide⟩

/-- **Which statuses have a title.** -/
theorem HTTPException.titleAndType_iff {exc : HTTPException} {baseUrl : Option String} :
    (∃ pair, exc.titleAndType baseUrl = .ok pair ∧ Encodable pair.1 ∧ Encodable pair.2) ↔
      Known exc.statusCode := by
  unfold HTTPException.titleAndType Known
  cases found : errorCodeForStatus exc.statusCode with
  | some code =>
      obtain ⟨problem, listed, proper⟩ := problemTypes_of_status found
      obtain ⟨uri, resolved⟩ := typeUri_eq_ok proper baseUrl
      refine ⟨fun _ => .inl rfl, fun _ => ⟨(text problem.title, text uri), ?_, ?_⟩⟩
      · simp only [Option.bind_some, listed, resolved, ok_bind]
        rfl
      · exact ⟨encodable_text _, encodable_text _⟩
  | none =>
      simp only [Option.bind_none]
      cases phrases.lookup exc.statusCode with
      | some phrase =>
          exact ⟨fun _ => .inr rfl, fun _ => ⟨_, rfl, encodable_text _, encodable_text _⟩⟩
      | none => simp

instance (statusCode : ℤ) : Decidable (Known statusCode) :=
  inferInstanceAs (Decidable (_ ∨ _))

/-- The statuses of client errors that are known. -/
theorem known_iff {statusCode : ℤ} (error : 400 ≤ statusCode) :
    Known statusCode ↔ 500 ≤ statusCode ∨ statusCode ≤ 418 ∨
      statusCode ∈ [421, 422, 423, 424, 425, 426, 428, 429, 431, 451] := by
  by_cases server : 500 ≤ statusCode
  · have known : (errorCodeForStatus statusCode).isSome := by
      unfold errorCodeForStatus
      cases statusToErrorCode.lookup statusCode with
      | some code => rfl
      | none => rw [if_pos server]; rfl
    exact ⟨fun _ => .inl server, fun _ => .inl known⟩
  · have each : ∀ n : ℕ, n < 100 → (Known (400 + (n : ℤ)) ↔
        500 ≤ 400 + (n : ℤ) ∨ 400 + (n : ℤ) ≤ 418 ∨
          400 + (n : ℤ) ∈ [421, 422, 423, 424, 425, 426, 428, 429, 431, 451]) := by
      decide +kernel
    obtain ⟨n, rfl⟩ : ∃ n : ℕ, statusCode = 400 + n := ⟨(statusCode - 400).toNat, by omega⟩
    exact each n (by omega)

/-- **Which details can be shown.** -/
theorem HTTPException.detailText_iff {platform : Platform} {exc : HTTPException} :
    (∃ shown, exc.detailText platform = .ok shown ∧ ∀ content ∈ shown, Encodable content) ↔
      exc.detail = .null ∨
        ∃ content, platform.strOf exc.detail = .ok content ∧ Encodable content := by
  unfold HTTPException.detailText
  split
  · rename_i absent
    rw [absent]
    exact iff_of_true ⟨none, rfl, fun content there => by cases there⟩ (.inl rfl)
  · rename_i given
    rw [or_iff_right given]
    cases platform.strOf exc.detail with
    | error e =>
        constructor
        · rintro ⟨shown, made, -⟩
          cases made
        · rintro ⟨content, made, -⟩
          cases made
    | ok content =>
        constructor
        · rintro ⟨shown, made, fit⟩
          obtain rfl := Except.ok.inj made
          exact ⟨content, rfl, fit content rfl⟩
        · rintro ⟨_, same, fit⟩
          obtain rfl := Except.ok.inj same
          refine ⟨some content, rfl, fun other there => ?_⟩
          obtain rfl := Option.some.inj there
          exact fit

theorem handled_http {platform : Platform} {request : Request} {exc : HTTPException}
    {path : String} (located : request.urlPath = .ok path) :
    Handled platform request (.http exc) ↔ (Exc.http exc).Presentable platform := by
  have known : (∃ pair, exc.titleAndType request.problemTypeBaseUrl = .ok pair ∧
      Encodable pair.1 ∧ Encodable pair.2) ↔ Known exc.statusCode :=
    HTTPException.titleAndType_iff
  rw [Exc.Presentable, ← known, ← HTTPException.detailText_iff]
  simp only [Handled, handle, httpExceptionHandler, logged_eq_ok located, located]
  cases exc.titleAndType request.problemTypeBaseUrl with
  | error e =>
      constructor
      · rintro ⟨response, made, -⟩
        cases made
      · rintro ⟨⟨pair, made, -⟩, -⟩
        cases made
  | ok pair =>
      obtain ⟨title, type_⟩ := pair
      cases exc.detailText platform with
      | error e =>
          constructor
          · rintro ⟨response, made, -⟩
            cases made
          · rintro ⟨-, -, ⟨shown, made, -⟩, -⟩
            cases made
      | ok shown =>
          simp only [ok_bind]
          refine answered_iff.trans ?_
          constructor
          · intro presentable
            exact ⟨⟨(title, type_), rfl, presentable.title, presentable.type_⟩,
              presentable.statusCode, ⟨shown, rfl, presentable.detail⟩, presentable.headers⟩
          · rintro ⟨⟨_, made, titled, typed⟩, statusCode, ⟨_, same, detail⟩, headers⟩
            obtain rfl := Except.ok.inj made
            obtain rfl := Except.ok.inj same
            refine ⟨titled, statusCode, detail, typed, ?_, headers⟩
            intro entries none_
            cases none_

/-- **When the error contract holds.** Of every exception the contract covers: the handler
does not raise and answers with a problem whose status, in the response and in the body, is
the mapped one, the exception's own headers among its headers, exactly if the URL of the
request can be taken apart and the data of the exception can be rendered. -/
theorem handled_iff (platform : Platform) (request : Request) (exc : Exc)
    (covered : exc.Covered platform) :
    Handled platform request exc ↔ request.Located ∧ exc.Presentable platform := by
  cases found : request.urlPath with
  | error e =>
      refine iff_of_false (not_handled_of_error found) ?_
      rintro ⟨⟨path, located⟩, -⟩
      cases found.symm.trans located
  | ok path =>
      rw [and_iff_right (show request.Located from ⟨path, found⟩)]
      cases exc with
      | app exc => exact handled_app found covered
      | validation errors => exact handled_validation found
      | http exc => exact handled_http found

/-- An interpreter for texts in ASCII. -/
def ascii : Platform where
  room := 200
  lower := List.map fun c => if 0x41 ≤ c ∧ c ≤ 0x5A then c + 0x20 else c
  str _ := .ok (text "<object>")
  serverTime := 1760000000
  serverTime_short := by decide

def getItems : Request where
  bindings := ⟨{ method := "GET", path := "/items" }, none⟩
  urlPath := .ok "/items"

/-- A 401 keeps its `WWW-Authenticate`. -/
theorem unauthorized_handled :
    Handled ascii getItems (.http
      { statusCode := 401
        detail := .str (text "Missing bearer token")
        headers := [(text "WWW-Authenticate", text "Bearer")] }) := by
  refine (handled_iff ascii getItems _ ?_).mpr ⟨⟨"/items", rfl⟩, ?_⟩
  · show (400 : ℤ) ≤ 401
    decide
  · refine ⟨.inl (by decide), by decide, .inr ⟨_, rfl, by decide⟩, ?_⟩
    · intro header member
      rw [List.mem_singleton.mp member]
      exact ⟨by decide, by decide, by decide⟩

/-- What pydantic reports of a float that must be finite. -/
def finiteNumber (input : PyObject) : Entry :=
  [(text "type", .str (text "finite_number")),
    (text "loc", .list [.str (text "body"), .str (text "price")]),
    (text "msg", .str (text "Input should be a finite number")),
    (text "input", input)]

/-- **A NaN in a request makes the handler raise.** The error keeps its input, and the
response cannot be rendered. -/
theorem nan_input_raises :
    handle ascii getItems (.validation [finiteNumber (.float .nan)]) = .error .valueError ∧
      ¬ Handled ascii getItems (.validation [finiteNumber (.float .nan)]) := by
  have raised : handle ascii getItems (.validation [finiteNumber (.float .nan)]) =
      .error .valueError := by decide +kernel
  refine ⟨raised, ?_⟩
  rintro ⟨response, handled, -⟩
  rw [raised] at handled
  cases handled

/-- **A status that is no `HTTPStatus` makes the handler raise**, though the exception has
a detail of its own. -/
theorem unregistered_status_raises (request : Request) (platform : Platform)
    (headers : List (Text × Text)) (detail : PyObject) :
    handle platform request (.http { statusCode := 499, detail, headers }) = .error .valueError :=
  rfl

end PyCommon.ErrorHandlers
