import PyCommon.Http.ErrorHandlers
import PyCommon.Lib.Html
import PyCommon.Lib.Outcomes

/-!
# The pages of the problem types

`build_problem_types_router` serves a page for each problem type and an index of them, so that
the `type` of a problem can be looked up. The pages are put together from literals and escaped
texts; one of the texts comes from the configuration, as the base URL of the types.

Whatever the base URL, a page is read back as the same tags with the title, the type, the code,
the status and the description between them (`page_read`), every link on a page is served
(`links_served`), and the type of every problem that an exception handler sends without a base
URL is served with a page that states it (`types_dereferenceable`).
-/

set_option autoImplicit false

namespace PyCommon.ProblemPages

open Html

/-! ## The registry -/

/-- The keys of `PROBLEM_TYPES`, in their order. -/
def order : List ErrorCode :=
  [.server, .database, .input, .auth, .appCheck, .forbidden, .notFound, .conflict, .rateLimit,
    .idempotency, .payloadTooLarge, .timeout]

/-- `PROBLEM_TYPES.values()`. -/
def values : List ProblemType := order.filterMap problemTypes

/-- The description of a problem type. -/
def describe : (code : ErrorCode) → code ≠ .ok → String
  | .ok, error => absurd rfl error
  | .server, _ => "An unexpected failure occurred while processing the request. " ++
      "Retry may help for transient faults; otherwise contact support with the request ID."
  | .database, _ => "A persistence-layer failure prevented completing the operation. " ++
      "The request was not fully applied; retry only if the operation is idempotent."
  | .input, _ => "The request was rejected because of invalid, missing, or conflicting input. " ++
      "Fix the request parameters or body and try again."
  | .auth, _ => "Authentication or authorization failed. " ++
      "Provide a valid credential (or a credential with the required permissions) and retry."
  | .appCheck, _ => "The client failed an application integrity or device attestation check. " ++
      "Ensure the client is a genuine build of the official app and retry."
  | .forbidden, _ =>
      "The credential is valid but lacks the permissions required for this operation. " ++
      "Retrying with the same credential will not help; request the missing role first."
  | .notFound, _ =>
      "The requested resource does not exist, or the caller is not allowed to know that " ++
      "it does. Check the identifier in the request path."
  | .conflict, _ =>
      "The request conflicts with the current state of the resource (duplicate key, " ++
      "stale version, or concurrent update). Re-read the resource and retry."
  | .rateLimit, _ => "The client exceeded the allowed request rate. " ++
      "Wait for the period given in the Retry-After header before retrying."
  | .idempotency, _ =>
      "An Idempotency-Key was reused in a way the server cannot resolve: either an " ++
      "earlier request with the same key is still running, or the same key was sent " ++
      "with a different request body. Retrying the original request unchanged is safe; " ++
      "sending different content requires a new key."
  | .payloadTooLarge, _ =>
      "The request body exceeded the size this service accepts. The limit is reported in " ++
      "the response detail; splitting the payload or using an upload endpoint designed " ++
      "for large content is the way through it. Retrying unchanged will not help."
  | .timeout, _ =>
      "The server gave up before the request finished, and the work it was doing was " ++
      "cancelled. The request may or may not have taken effect before that point, so " ++
      "retrying a non-idempotent operation risks doing it twice."

theorem code_ne_ok {problem : ProblemType} (listed : problem ∈ values) : problem.code ≠ .ok := by
  obtain ⟨code, member, found⟩ := List.mem_filterMap.mp listed
  cases code <;> cases found <;> simp

theorem mem_values {code : ErrorCode} {problem : ProblemType}
    (found : problemTypes code = some problem) : problem ∈ values := by
  apply List.mem_filterMap.mpr
  refine ⟨code, ?_, found⟩
  cases code with
  | ok => cases found
  | _ => simp [order]

/-- A problem type of the registry. -/
abbrev Listed := {problem : ProblemType // problem ∈ values}

def Listed.description (problem : Listed) : String :=
  describe problem.1.code (code_ne_ok problem.2)

def Listed.typeUri (problem : Listed) (baseUrl : Option String) : String :=
  errorTypeUri (code_ne_ok problem.2) baseUrl

/-! ## The pages -/

/-- What `_problem_type_html` returns for a problem that it finds. -/
def Listed.page (problem : Listed) (baseUrl : Option String) : List Char :=
  "<!DOCTYPE html>\n".toList ++
  "<html lang=\"en\"><head><meta charset=\"utf-8\">".toList ++
  ("<title>".toList ++ escape problem.1.title.toList ++ "</title></head><body>\n".toList) ++
  ("<h1>".toList ++ escape problem.1.title.toList ++ "</h1>\n".toList) ++
  ("<p><strong>type:</strong> <code>".toList ++ escape (problem.typeUri baseUrl).toList ++
    "</code></p>\n".toList) ++
  ("<p><strong>error_code:</strong> ".toList ++ (toString problem.1.code.toNat).toList ++
    "</p>\n".toList) ++
  ("<p><strong>HTTP status:</strong> ".toList ++ (toString problem.1.statusCode).toList ++
    "</p>\n".toList) ++
  ("<p>".toList ++ escape problem.description.toList ++ "</p>\n".toList) ++
  "<p><a href=\"/problems\">All problem types</a></p>\n".toList ++
  "</body></html>\n".toList

/-- `_problem_type_html`. -/
def problemTypeHtml (slug : String) (baseUrl : Option String) : Option (List Char) :=
  (values.attach.find? fun problem => problem.1.slug = slug).map fun problem =>
    Listed.page problem baseUrl

/-- An item of the index. -/
def Listed.item (problem : Listed) (baseUrl : Option String) : List Char :=
  "<li>".toList ++
  ("<a href=\"/problems/".toList ++ escape problem.1.slug.toList ++ "\">".toList ++
    escape problem.1.title.toList ++ "</a>".toList) ++
  (" — <code>".toList ++ escape (problem.typeUri baseUrl).toList ++ "</code>".toList) ++
  (" (error_code=".toList ++ (toString problem.1.code.toNat).toList ++ ")".toList) ++
  "</li>".toList

/-- `_problem_index_html`. -/
def problemIndexHtml (baseUrl : Option String) : List Char :=
  "<!DOCTYPE html>\n".toList ++
  "<html lang=\"en\"><head><meta charset=\"utf-8\">".toList ++
  "<title>Problem Types</title></head><body>\n".toList ++
  "<h1>Problem Types</h1>\n".toList ++
  "<p>RFC 9457 problem type documentation for this API.</p>\n".toList ++
  ("<ul>\n".toList ++ (values.attach.flatMap fun problem => Listed.item problem baseUrl) ++
    "\n</ul>\n".toList) ++
  "</body></html>\n".toList

/-! ## The router -/

structure HTMLResponse where
  content : List Char
  statusCode : ℤ := 200

/-- `problem_detail`. -/
def problemDetail (baseUrl : Option String) (slug : String) : HTMLResponse :=
  match problemTypeHtml slug baseUrl with
  | none =>
      { content :=
          "<!DOCTYPE html><html><body><h1>Unknown problem type</h1></body></html>".toList
        statusCode := 404 }
  | some html => { content := html }

/-- The slug in a path of the form `/problems/{slug}`: not empty, and a single segment. -/
def slugOf (path : String) : Option String :=
  (path.toList.dropPrefix? "/problems/".toList).bind fun slug =>
    if slug = [] ∨ '/' ∈ slug then none else some (String.ofList slug)

/-- What the router answers to a GET of a path, if one of its routes matches. -/
def serve (baseUrl : Option String) (path : String) : Option HTMLResponse :=
  if path = "/problems" then some { content := problemIndexHtml baseUrl }
  else (slugOf path).map (problemDetail baseUrl)

/-! ## What the pages say -/

def tag (name : String) : Token := .opening name.toList []

def endTag (name : String) : Token := .closing name.toList

/-- A tag that begins a link. -/
def linkTo (href : List Char) : Token := .opening "a".toList [⟨"href".toList, href⟩]

/-- What both kinds of page begin with. -/
def heading (title : List Char) : List Token :=
  [.declaration "DOCTYPE html".toList, .char '\n'] ++
  [.opening "html".toList [⟨"lang".toList, "en".toList⟩], tag "head",
    .opening "meta".toList [⟨"charset".toList, "utf-8".toList⟩]] ++
  ([tag "title"] ++ chars title ++
    [endTag "title", endTag "head", tag "body", .char '\n']) ++
  ([tag "h1"] ++ chars title ++ [endTag "h1", .char '\n'])

/-- A labelled paragraph. -/
def labelled (label : String) (front inside back : List Token) : List Token :=
  ([tag "p", tag "strong"] ++ chars label.toList ++ [endTag "strong", .char ' '] ++ front) ++
    inside ++ (back ++ [endTag "p", .char '\n'])

/-- The page of a problem: its title, its type, its code, its status and its description. -/
def Listed.shown (problem : Listed) (baseUrl : Option String) : List Token :=
  heading problem.1.title.toList ++
  labelled "type:" [tag "code"] (chars (problem.typeUri baseUrl).toList) [endTag "code"] ++
  labelled "error_code:" [] (chars (toString problem.1.code.toNat).toList) [] ++
  labelled "HTTP status:" [] (chars (toString problem.1.statusCode).toList) [] ++
  ([tag "p"] ++ chars problem.description.toList ++ [endTag "p", .char '\n']) ++
  ([tag "p", linkTo "/problems".toList] ++ chars "All problem types".toList ++
    [endTag "a", endTag "p", .char '\n']) ++
  [endTag "body", endTag "html", .char '\n']

/-- The line of the index for a problem. -/
def Listed.line (problem : Listed) (baseUrl : Option String) : List Token :=
  [tag "li"] ++
  ([linkTo ("/problems/".toList ++ problem.1.slug.toList)] ++ chars problem.1.title.toList ++
    [endTag "a"]) ++
  ((chars " — ".toList ++ [tag "code"]) ++ chars (problem.typeUri baseUrl).toList ++
    [endTag "code"]) ++
  (chars " (error_code=".toList ++ chars (toString problem.1.code.toNat).toList ++ [.char ')']) ++
  [endTag "li"]

/-- The index: a line for each problem, in the order of the registry. -/
def indexShown (baseUrl : Option String) : List Token :=
  heading "Problem Types".toList ++
  ([tag "p"] ++ chars "RFC 9457 problem type documentation for this API.".toList ++
    [endTag "p", .char '\n']) ++
  ([tag "ul", .char '\n'] ++ (values.attach.flatMap fun problem => Listed.line problem baseUrl) ++
    [.char '\n', endTag "ul", .char '\n']) ++
  [endTag "body", endTag "html", .char '\n']

/-! ## Reading a page back -/

theorem escape_code (code : ErrorCode) :
    escape (toString code.toNat).toList = (toString code.toNat).toList := by
  cases code <;> rfl

theorem escape_statusCode (problem : Listed) :
    escape (toString problem.1.statusCode).toList = (toString problem.1.statusCode).toList := by
  have all : ∀ problem ∈ values,
      escape (toString problem.statusCode).toList = (toString problem.statusCode).toList := by
    decide
  exact all problem.1 problem.2

theorem render_heading (title : List Char) :
    render (heading title) = "<!DOCTYPE html>\n".toList ++
      "<html lang=\"en\"><head><meta charset=\"utf-8\">".toList ++
      ("<title>".toList ++ escape title ++ "</title></head><body>\n".toList) ++
      ("<h1>".toList ++ escape title ++ "</h1>\n".toList) := by
  simp only [heading, render_append, render_chars]
  rfl

theorem render_typed (content : List Char) :
    render (labelled "type:" [tag "code"] (chars content) [endTag "code"]) =
      "<p><strong>type:</strong> <code>".toList ++ escape content ++ "</code></p>\n".toList := by
  rw [labelled, render_append, render_append, render_chars]
  rfl

theorem render_coded (content : List Char) :
    render (labelled "error_code:" [] (chars content) []) =
      "<p><strong>error_code:</strong> ".toList ++ escape content ++ "</p>\n".toList := by
  rw [labelled, render_append, render_append, render_chars]
  rfl

theorem render_status (content : List Char) :
    render (labelled "HTTP status:" [] (chars content) []) =
      "<p><strong>HTTP status:</strong> ".toList ++ escape content ++ "</p>\n".toList := by
  rw [labelled, render_append, render_append, render_chars]
  rfl

theorem render_paragraph (content : List Char) :
    render ([tag "p"] ++ chars content ++ [endTag "p", .char '\n']) =
      "<p>".toList ++ escape content ++ "</p>\n".toList := by
  rw [render_append, render_append, render_chars]
  rfl

theorem render_back :
    render ([tag "p", linkTo "/problems".toList] ++ chars "All problem types".toList ++
      [endTag "a", endTag "p", .char '\n']) =
        "<p><a href=\"/problems\">All problem types</a></p>\n".toList := rfl

theorem render_ending :
    render [endTag "body", endTag "html", .char '\n'] = "</body></html>\n".toList := rfl

theorem render_shown (problem : Listed) (baseUrl : Option String) :
    render (problem.shown baseUrl) = problem.page baseUrl := by
  unfold Listed.shown
  rw [render_append, render_append, render_append, render_append, render_append, render_append,
    render_heading, render_typed, render_coded, render_status, render_paragraph, render_back,
    render_ending, escape_code problem.1.code, escape_statusCode problem]
  unfold Listed.page
  rfl

theorem render_linkTo (href : List Char) :
    render [linkTo href] = "<a href=\"".toList ++ escape href ++ "\">".toList := by
  simp [render, linkTo, Token.render, Attribute.render]

theorem render_linkTo_slug (slug : List Char) :
    render [linkTo ("/problems/".toList ++ slug)] =
      "<a href=\"/problems/".toList ++ escape slug ++ "\">".toList := by
  have front : "<a href=\"/problems/".toList = "<a href=\"".toList ++ escape "/problems/".toList :=
    rfl
  rw [render_linkTo, escape_append, front, List.append_assoc _ _ (escape slug)]

theorem render_line (problem : Listed) (baseUrl : Option String) :
    render (problem.line baseUrl) = problem.item baseUrl := by
  have typed : render (chars " — ".toList ++ [tag "code"]) = " — <code>".toList := rfl
  have coded : render (chars " (error_code=".toList) = " (error_code=".toList := rfl
  unfold Listed.line Listed.item
  rw [render_append, render_append, render_append, render_append]
  rw [render_append, render_append, render_linkTo_slug, render_chars problem.1.title.toList]
  rw [render_append, render_append, typed, render_chars (problem.typeUri baseUrl).toList]
  rw [render_append, render_append, coded, render_chars (toString problem.1.code.toNat).toList,
    escape_code problem.1.code]
  rfl

theorem render_indexShown (baseUrl : Option String) :
    render (indexShown baseUrl) = problemIndexHtml baseUrl := by
  have introduction : render ([tag "p"] ++
      chars "RFC 9457 problem type documentation for this API.".toList ++
        [endTag "p", .char '\n']) =
      "<p>RFC 9457 problem type documentation for this API.</p>\n".toList := rfl
  have title : escape "Problem Types".toList = "Problem Types".toList := rfl
  unfold indexShown problemIndexHtml
  rw [render_append, render_append, render_append, render_heading, introduction, title,
    render_ending, render_append, render_append, render_flatMap]
  simp only [render_line]
  rfl

theorem written_heading (title : List Char) : Written (heading title) := by
  simp only [heading, written_append, written_chars]
  decide

theorem written_labelled (label : String) {front back : List Token} (content : List Char)
    (before : Written front) (after : Written back) :
    Written (labelled label front (chars content) back) := by
  simp only [labelled, written_append, written_chars, before, after]
  decide

theorem written_linkTo (href : List Char) : Written [linkTo href] := by
  intro token member
  obtain rfl := List.mem_singleton.mp member
  have named : NamePlain "href".toList := by decide
  exact ⟨by decide, by decide, fun attr only => List.mem_singleton.mp only ▸ named⟩

theorem written_shown (problem : Listed) (baseUrl : Option String) :
    Written (problem.shown baseUrl) := by
  have typed := written_labelled "type:" (problem.typeUri baseUrl).toList
    (show Written [tag "code"] by decide) (show Written [endTag "code"] by decide)
  have coded := written_labelled "error_code:" (toString problem.1.code.toNat).toList
    (show Written [] by decide) (show Written [] by decide)
  have status := written_labelled "HTTP status:"
    (toString problem.1.statusCode).toList (show Written [] by decide) (show Written [] by decide)
  simp only [Listed.shown, written_append, written_heading, written_chars, typed, coded, status]
  decide

theorem written_line (problem : Listed) (baseUrl : Option String) :
    Written (problem.line baseUrl) := by
  simp only [Listed.line, written_append, written_linkTo, written_chars]
  decide

theorem written_indexShown (baseUrl : Option String) : Written (indexShown baseUrl) := by
  have lines : Written (values.attach.flatMap fun problem => Listed.line problem baseUrl) := by
    intro token member
    obtain ⟨problem, -, inside⟩ := List.mem_flatMap.mp member
    exact written_line problem baseUrl token inside
  simp only [indexShown, written_append, written_heading, written_chars, lines]
  decide

theorem read_page (problem : Listed) (baseUrl : Option String) :
    read (problem.page baseUrl) = some (problem.shown baseUrl) := by
  rw [← render_shown, read_render (written_shown problem baseUrl)]

theorem read_index (baseUrl : Option String) :
    read (problemIndexHtml baseUrl) = some (indexShown baseUrl) := by
  rw [← render_indexShown, read_render (written_indexShown baseUrl)]

/-! ## The pages that are served -/

theorem slug_injective {problem other : Listed} (same : problem.1.slug = other.1.slug) :
    problem = other := by
  have apart : ∀ problem ∈ values, ∀ other ∈ values, problem.slug = other.slug →
      problem = other := by
    decide
  exact Subtype.ext (apart problem.1 problem.2 other.1 other.2 same)

theorem problemTypeHtml_slug (problem : Listed) (baseUrl : Option String) :
    problemTypeHtml problem.1.slug baseUrl = some (problem.page baseUrl) := by
  cases found : values.attach.find? fun other => other.1.slug = problem.1.slug with
  | none =>
      have missing := List.find?_eq_none.mp found problem (List.mem_attach values problem)
      simp at missing
  | some other =>
      have same : other.1.slug = problem.1.slug := by simpa using List.find?_some found
      rw [problemTypeHtml, found, slug_injective same]
      rfl

/-- **Every page says what the registry says**, under any base URL. -/
theorem page_read (problem : Listed) (baseUrl : Option String) :
    ∃ html, problemTypeHtml problem.1.slug baseUrl = some html ∧
      read html = some (problem.shown baseUrl) :=
  ⟨problem.page baseUrl, problemTypeHtml_slug problem baseUrl, read_page problem baseUrl⟩

/-! ## Links -/

/-- Where the links among some tokens lead. -/
def links (tokens : List Token) : List (List Char) :=
  tokens.filterMap fun token =>
    match token with
    | .opening ['a'] attributes =>
        (attributes.find? fun attr => attr.name = "href".toList).map Attribute.value
    | _ => none

theorem links_append (front back : List Token) :
    links (front ++ back) = links front ++ links back := List.filterMap_append

theorem links_chars (content : List Char) : links (chars content) = [] := by
  simp [links, chars]

theorem links_linkTo (href : List Char) : links [linkTo href] = [href] := rfl

theorem links_heading (title : List Char) : links (heading title) = [] := by
  simp only [heading, links_append, links_chars]
  rfl

theorem links_shown (problem : Listed) (baseUrl : Option String) :
    links (problem.shown baseUrl) = ["/problems".toList] := by
  simp only [Listed.shown, labelled, links_append, links_heading, links_chars]
  rfl

theorem links_line (problem : Listed) (baseUrl : Option String) :
    links (problem.line baseUrl) = ["/problems/".toList ++ problem.1.slug.toList] := by
  simp only [Listed.line, links_append, links_linkTo, links_chars]
  rfl

theorem links_indexShown (baseUrl : Option String) :
    links (indexShown baseUrl) =
      values.attach.map fun problem => "/problems/".toList ++ problem.1.slug.toList := by
  have lines : links (values.attach.flatMap fun problem => Listed.line problem baseUrl) =
      values.attach.map fun problem => "/problems/".toList ++ problem.1.slug.toList := by
    rw [links, List.filterMap_flatMap, List.map_eq_flatMap]
    exact List.flatMap_congr fun problem _ => links_line problem baseUrl
  have tags : links [endTag "p", .char '\n'] = [] ∧ links [tag "p"] = [] ∧
      links [tag "ul", .char '\n'] = [] ∧ links [.char '\n', endTag "ul", .char '\n'] = [] ∧
      links [endTag "body", endTag "html", .char '\n'] = [] := ⟨rfl, rfl, rfl, rfl, rfl⟩
  obtain ⟨closing, opening, list, lastly, final⟩ := tags
  simp only [indexShown, links_append, links_heading, links_chars, lines, closing, opening, list,
    lastly, final, List.nil_append, List.append_nil]

theorem serve_slug (problem : Listed) (baseUrl : Option String) :
    serve baseUrl (String.ofList ("/problems/".toList ++ problem.1.slug.toList)) =
      some { content := problem.page baseUrl } := by
  have routed : ∀ problem ∈ values,
      String.ofList ("/problems/".toList ++ problem.slug.toList) ≠ "/problems" ∧
        slugOf (String.ofList ("/problems/".toList ++ problem.slug.toList)) =
          some problem.slug := by
    decide
  obtain ⟨other, slug⟩ := routed problem.1 problem.2
  rw [serve, if_neg other, slug, Option.map_some, problemDetail, problemTypeHtml_slug]

/-- **Every link leads to a page.** -/
theorem links_served {baseUrl : Option String} {path : String} {answer : HTMLResponse}
    (served : serve baseUrl path = some answer) :
    ∃ tokens, read answer.content = some tokens ∧ ∀ href ∈ links tokens,
      ∃ page, serve baseUrl (String.ofList href) = some { content := page } := by
  unfold serve at served
  split at served
  · obtain rfl := Option.some.inj served
    refine ⟨indexShown baseUrl, read_index baseUrl, ?_⟩
    intro href member
    rw [links_indexShown] at member
    obtain ⟨problem, -, rfl⟩ := List.mem_map.mp member
    exact ⟨_, serve_slug problem baseUrl⟩
  · obtain ⟨slug, -, rfl⟩ := Option.map_eq_some_iff.mp served
    unfold problemDetail problemTypeHtml
    cases values.attach.find? fun problem => problem.1.slug = slug with
    | none =>
        refine ⟨_, rfl, ?_⟩
        intro href member
        cases member
    | some problem =>
        refine ⟨_, read_page problem baseUrl, ?_⟩
        intro href member
        rw [links_shown] at member
        obtain rfl := List.mem_singleton.mp member
        exact ⟨problemIndexHtml baseUrl, rfl⟩

/-- A base URL that could end a tag, and a page that is not there. -/
theorem links_served_injected :
    ∃ tokens, read (problemDetail (some "\"><script>") "nothing").content = some tokens ∧
      ∀ href ∈ links tokens, ∃ page,
        serve (some "\"><script>") (String.ofList href) = some { content := page } :=
  @links_served (some "\"><script>") "/problems/nothing" _ rfl

/-! ## The types of problems that are sent -/

open ErrorHandlers JsonResponse
open CodePoints (Text text)

/-- The problem type of an exception, if it has one. -/
def problemTypeOf : Exc → Option ProblemType
  | .app exc => problemTypes exc.errorCode
  | .validation _ => problemTypes .input
  | .http exc => (errorCodeForStatus exc.statusCode).bind problemTypes

/-- The `type` that an `AppError` was given. -/
def givenType : Exc → Option Text
  | .app exc => exc.type_
  | _ => none

theorem code_of_problemTypes {code : ErrorCode} {problem : ProblemType}
    (found : problemTypes code = some problem) : problem.code = code := by
  cases code <;> cases found <;> rfl

theorem problemTypes_of_typed {exc : Exc} {problem : ProblemType}
    (typed : problemTypeOf exc = some problem) : problemTypes problem.code = some problem := by
  obtain ⟨code, found⟩ : ∃ code, problemTypes code = some problem := by
    cases exc with
    | app exc => exact ⟨exc.errorCode, typed⟩
    | validation errors => exact ⟨.input, typed⟩
    | http exc =>
        obtain ⟨code, -, found⟩ := Option.bind_eq_some_iff.mp typed
        exact ⟨code, found⟩
  rw [code_of_problemTypes found, found]

/-- Whatever an exception with a problem type is answered with is the response to a problem of
this type and code. -/
theorem problem_of_handle {platform : Platform} {request : Request} {exc : Exc}
    {response : Response} {problem : ProblemType}
    (answered : handle platform request exc = .ok response)
    (typed : problemTypeOf exc = some problem) (standard : givenType exc = none) :
    ∃ sent : Problem, ErrorHandlers.problemResponse platform sent = .ok response ∧
      sent.errorCode = some problem.code ∧
      ErrorHandlers.typeUri problem.code request.problemTypeBaseUrl = .ok sent.type_ := by
  cases exc with
  | app exc =>
      have code := code_of_problemTypes typed
      have proper : exc.errorCode ≠ .ok := fun same => by
        rw [problemTypeOf, same] at typed
        cases typed
      have plain : exc.type_ = none := standard
      simp only [handle, appErrorHandler, AppError.resolveType, plain, if_neg proper] at answered
      obtain ⟨-, -, answered⟩ := Outcome.bind_eq_ok.mp answered
      obtain ⟨path, -, answered⟩ := Outcome.bind_eq_ok.mp answered
      obtain ⟨type_, resolved, made⟩ := Outcome.bind_eq_ok.mp answered
      exact ⟨_, made, congrArg some code.symm, by rw [code]; exact resolved⟩
  | validation errors =>
      have code : problem.code = .input := code_of_problemTypes typed
      simp only [handle, validationExceptionHandler] at answered
      obtain ⟨path, -, answered⟩ := Outcome.bind_eq_ok.mp answered
      obtain ⟨type_, resolved, rest⟩ := Outcome.bind_eq_ok.mp answered
      obtain ⟨entries, -, made⟩ := Outcome.bind_eq_ok.mp rest
      exact ⟨_, made, congrArg some code.symm, by rw [code]; exact resolved⟩
  | http exc =>
      obtain ⟨code, found, listed⟩ := Option.bind_eq_some_iff.mp typed
      have same := code_of_problemTypes listed
      simp only [handle, httpExceptionHandler] at answered
      obtain ⟨⟨title, type_⟩, resolved, answered⟩ := Outcome.bind_eq_ok.mp answered
      obtain ⟨-, -, answered⟩ := Outcome.bind_eq_ok.mp answered
      obtain ⟨detail, -, answered⟩ := Outcome.bind_eq_ok.mp answered
      obtain ⟨path, -, made⟩ := Outcome.bind_eq_ok.mp answered
      have known : (errorCodeForStatus exc.statusCode).bind problemTypes = some problem := typed
      rw [HTTPException.titleAndType, known] at resolved
      obtain ⟨uri, named, pair⟩ := Outcome.bind_eq_ok.mp resolved
      obtain ⟨-, rfl⟩ := Prod.mk.inj (Except.ok.inj pair)
      exact ⟨_, made, by rw [found, same], named⟩

theorem mem_dumped {fields : List (String × Option PyObject)} {name : String} {value : PyObject} :
    (.str (text name), value) ∈ dumped fields ↔ (name, some value) ∈ fields := by
  rw [dumped, List.mem_filterMap]
  constructor
  · rintro ⟨⟨other, content⟩, member, made⟩
    obtain ⟨shown, rfl, same⟩ := Option.map_eq_some_iff.mp made
    obtain ⟨key, rfl⟩ := Prod.mk.inj same
    obtain rfl : other = name := CodePoints.text_injective (PyObject.str.inj key)
    exact member
  · intro member
    exact ⟨(name, some value), member, rfl⟩

theorem problemTypeUri_relative {code : ErrorCode} {problem : ProblemType}
    {baseUrl : Option String} (found : problemTypes code = some problem)
    (relative : baseUrl = none ∨ baseUrl = some "") :
    problemTypeUri code baseUrl = some ("/problems/" ++ problem.slug) := by
  rw [problemTypeUri, found]
  rcases relative with rfl | rfl <;> rfl

/-- **The type of a problem can be looked up.** -/
theorem types_dereferenceable {platform : Platform} {request : Request} {exc : Exc}
    {response : Response} {problem : ProblemType}
    (answered : handle platform request exc = .ok response)
    (typed : problemTypeOf exc = some problem) (standard : givenType exc = none)
    (relative : request.problemTypeBaseUrl = none ∨ request.problemTypeBaseUrl = some "") :
    ∃ (listed : problem ∈ values) (members : List (PyObject × PyObject)) (path : String)
      (page : List Char),
      render (platform.room + 4) (.dict members) = .ok response.body ∧
      (∀ value, (.str (text "type"), value) ∈ members ↔ value = .str (text path)) ∧
      (∀ value, (.str (text "error_code"), value) ∈ members ↔
        value = .int problem.code.toNat) ∧
      serve request.problemTypeBaseUrl path = some { content := page } ∧
      read page = some (Listed.shown ⟨problem, listed⟩ request.problemTypeBaseUrl) := by
  obtain ⟨sent, made, coded, resolved⟩ := problem_of_handle answered typed standard
  obtain ⟨body, rendered, own, -, rfl⟩ := create_eq_ok.mp made
  have found := problemTypes_of_typed typed
  have listed := mem_values found
  let entry : Listed := ⟨problem, listed⟩
  refine ⟨listed, _, "/problems/" ++ problem.slug, entry.page request.problemTypeBaseUrl, rendered,
    ?_, ?_, ?_, read_page entry request.problemTypeBaseUrl⟩
  · intro value
    rw [ErrorHandlers.typeUri, problemTypeUri_relative found relative] at resolved
    have type_ : text ("/problems/" ++ problem.slug) = sent.type_ := Except.ok.inj resolved
    rw [mem_dumped]
    simp [Problem.fields, ← type_]
  · intro value
    rw [mem_dumped]
    simp [Problem.fields, coded]
  · have served := serve_slug entry request.problemTypeBaseUrl
    rwa [String.ofList_append, String.ofList_toList, String.ofList_toList] at served

/-- A resource that is not there is answered with a type that leads to its page. -/
theorem not_found_dereferenceable :
    ∃ (response : Response) (path : String) (page : List Char),
      handle ascii getItems (.app { errorCode := .notFound }) = .ok response ∧
      serve none path = some { content := page } ∧
      read page = some
        (Listed.shown ⟨⟨.notFound, "not-found", "Not Found", 404⟩, by decide⟩ none) := by
  cases answered : handle ascii getItems (.app { errorCode := .notFound }) with
  | error e =>
      have fine : (handle ascii getItems (.app { errorCode := .notFound })).isOk := by
        decide +kernel
      rw [answered] at fine
      cases fine
  | ok response =>
      obtain ⟨listed, -, path, page, -, -, -, served, states⟩ :=
        types_dereferenceable answered rfl rfl (.inl rfl)
      exact ⟨response, path, page, rfl, served, states⟩

end PyCommon.ProblemPages
