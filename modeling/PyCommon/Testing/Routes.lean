import Mathlib.Data.List.Basic
import PyCommon.Asgi
import PyCommon.Lib.Dictionaries

/-!
# Auditing routes for authentication

`assert_routes_protected` reads the OpenAPI document of an app and fails when an
operation declares no security scheme and is not listed as public. What the document
says of an app is FastAPI's doing: an operation appears in it when its route is
included in the schema, unless a later route of the same path and method replaces
it, with the schemes of all its dependencies.

Dependencies are trees. FastAPI resolves what a dependency needs before it calls it,
and the first exception ends the request, so a dependency anywhere in the tree that
insists on credentials rejects a request without any. A dependency that takes a
scheme does not have to insist: `Auth.optional_user` does not.

**Soundness.** When the audit passes, every operation the document lists under a path
that is not covered declares a scheme, and lets a request without credentials through
only if every dependency by which it declares one does (`audit_sound`). It says
nothing of the operations that the document leaves out (`open_routes_pass`).
-/

set_option autoImplicit false

namespace PyCommon.Routes

open Dictionaries (assign lookup_assign)

/-! ## Dependencies -/

/-- An `HTTPException`. -/
structure HttpError where
  status : ℕ
  detail : String
  deriving DecidableEq

/-- What a dependency gives to the one that needs it. -/
inductive Value where
  | absent
  | authorization (scheme credentials : String)
  | apiKey (key : String)
  | other (text : String)
  deriving DecidableEq

/-- An `HTTPBearer` or `APIKeyHeader`, by the name it has in the document and what it
raises without credentials, which is nothing under `auto_error=False`. -/
structure Scheme where
  name : String
  autoError : Option HttpError := none
  deriving DecidableEq

/-- A dependency: a scheme, or a function of what it needs. -/
inductive Dependency where
  | scheme (s : Scheme)
  | function (call : List Value → Except HttpError Value) (needs : List Dependency)

/-- A scheme on a request without credentials. -/
def Scheme.solve (s : Scheme) : Except HttpError Value :=
  match s.autoError with
  | some e => .error e
  | none => .ok .absent

mutual
/-- Resolving a dependency for a request without credentials. -/
def Dependency.solve : Dependency → Except HttpError Value
  | .scheme s => s.solve
  | .function call needs => (solveAll needs).bind call

/-- The dependencies are resolved in order, up to the first exception. -/
def solveAll : List Dependency → Except HttpError (List Value)
  | [] => .ok []
  | d :: ds => d.solve.bind fun value => (solveAll ds).map fun values => value :: values
end

mutual
/-- The schemes in the tree of a dependency. -/
def Dependency.schemes : Dependency → List String
  | .scheme s => [s.name]
  | .function _ needs => schemesOf needs

def schemesOf : List Dependency → List String
  | [] => []
  | d :: ds => d.schemes ++ schemesOf ds
end

mutual
/-- The dependencies in the tree that take a scheme. -/
def Dependency.takers : Dependency → List Dependency
  | .scheme s => [.scheme s]
  | .function call needs => takersUnder (.function call needs) needs

/-- The same among the needs of a dependency. -/
def takersUnder (parent : Dependency) : List Dependency → List Dependency
  | [] => []
  | .scheme _ :: ds => parent :: takersUnder parent ds
  | .function call needs :: ds => (Dependency.function call needs).takers ++ takersUnder parent ds
end

/-- A request without credentials is rejected. -/
def Dependency.rejects (d : Dependency) : Prop := ∃ e, d.solve = .error e

/-! ## The dependencies of the library -/

def bearer : Scheme := { name := "HTTPBearer" }

def apiKey : Scheme := { name := "APIKeyHeader" }

/-- `unauthorized`. -/
def unauthorized (detail : String) : HttpError := ⟨401, detail⟩

/-- `Auth.current_user`. -/
def currentUser (decode : String → Except HttpError Value) : Dependency :=
  .function
    (fun values =>
      match values with
      | [.authorization scheme credentials] =>
          if lower scheme ≠ "bearer" then .error (unauthorized "Not authenticated")
          else decode credentials
      | _ => .error (unauthorized "Not authenticated"))
    [.scheme bearer]

/-- `Auth.optional_user`. -/
def optionalUser (decode : String → Except HttpError Value) : Dependency :=
  .function
    (fun values =>
      match values with
      | [.authorization scheme credentials] =>
          if lower scheme ≠ "bearer" then .ok .absent else decode credentials
      | _ => .ok .absent)
    [.scheme bearer]

/-- `check_api_key` of an internal router with a key. -/
def checkApiKey (expected : String) : Dependency :=
  .function
    (fun values =>
      match values with
      | [.apiKey provided] =>
          if provided ≠ expected then .error ⟨401, "Invalid API key"⟩ else .ok .absent
      | _ => .error ⟨401, "Invalid API key"⟩)
    [.scheme apiKey]

/-! ## Apps and their documents -/

/-- An operation: a method of a route, as the document writes it, with the dependencies
the route has and inherits. -/
structure Operation where
  path : String
  method : String
  includeInSchema : Bool := true
  dependencies : List Dependency := []

/-- An entry of a path item: an operation, by whether it has `responses` and by its
`security`, or a sibling of the operations such as `parameters`. -/
inductive Entry where
  | operation (responses : Bool) (security : List String)
  | sibling
  deriving DecidableEq

abbrev PathItem := List (String × Entry)

/-- The `paths` of a document. -/
abbrev Document := List (String × PathItem)

/-- The entry FastAPI writes for an operation. -/
def Operation.entry (operation : Operation) : Entry :=
  .operation true (schemesOf operation.dependencies)

/-- One more operation in the document. -/
def addOperation (paths : Document) (operation : Operation) : Document :=
  if operation.includeInSchema then
    let item := (paths.lookup operation.path).getD []
    assign operation.path (assign operation.method operation.entry item) paths
  else paths

/-- The document of an app with these operations, in the order of its routes. -/
def openapi (operations : List Operation) : Document := operations.foldl addOperation []

/-- A request without credentials for the operation is rejected. -/
def Operation.rejects (operation : Operation) : Prop :=
  ∃ e, solveAll operation.dependencies = .error e

/-- The dependencies by which the operation declares a scheme. -/
def Operation.takers (operation : Operation) : List Dependency :=
  operation.dependencies.flatMap Dependency.takers

/-! ## The audit -/

/-- `path.startswith(prefixes)`. -/
def startsWithAny (path : String) (prefixes : List String) : Bool :=
  prefixes.any fun p => p.toList.isPrefixOf path.toList

/-- `path in exact or path.startswith(prefixes)`. -/
def covered (publicPrefixes publicPaths : List String) (path : String) : Bool :=
  publicPaths.contains path || startsWithAny path publicPrefixes

/-- The `METHOD /path` lines of a path item that are listed as unprotected. -/
def unprotectedIn (path : String) (item : PathItem) : List String :=
  item.filterMap fun (method, entry) =>
    match entry with
    | .operation true [] => some (upper method ++ " " ++ path)
    | _ => none

def unprotected (publicPrefixes publicPaths : List String) (document : Document) : List String :=
  document.flatMap fun (path, item) =>
    if covered publicPrefixes publicPaths path then [] else unprotectedIn path item

/-- `assert_routes_protected`, with the text of the `AssertionError`. -/
def assertRoutesProtected (publicPrefixes publicPaths : List String) (document : Document) :
    Except String Unit :=
  match unprotected publicPrefixes publicPaths document with
  | [] => .ok ()
  | lines =>
      .error ("These operations declare no security scheme. Move them onto an " ++
        "authenticated router, or list them as public if that is intended:\n  " ++
        "\n  ".intercalate (lines.mergeSort fun a b => a ≤ b))

/-! ## The tree of dependencies -/

theorem solveAll_cons (d : Dependency) (ds : List Dependency) :
    solveAll (d :: ds) =
      d.solve.bind fun value => (solveAll ds).map fun values => value :: values := by
  rw [solveAll]

/-- Resolving in order fails exactly when some dependency rejects. -/
theorem solveAll_error_iff (ds : List Dependency) :
    (∃ e, solveAll ds = .error e) ↔ ∃ d ∈ ds, d.rejects := by
  induction ds with
  | nil => simp [solveAll]
  | cons d ds ih =>
      rw [solveAll_cons, List.exists_mem_cons_iff, ← ih, Dependency.rejects]
      cases d.solve with
      | error e => simp [Except.bind]
      | ok value =>
          cases solveAll ds with
          | error e => simp [Except.bind, Except.map]
          | ok values => simp [Except.bind, Except.map]

/-- A dependency rejects when one of its needs does. -/
theorem rejects_of_need {call : List Value → Except HttpError Value} {needs : List Dependency}
    {d : Dependency} (member : d ∈ needs) (rejects : d.rejects) :
    (Dependency.function call needs).rejects := by
  obtain ⟨e, failed⟩ := (solveAll_error_iff needs).mpr ⟨d, member, rejects⟩
  refine ⟨e, ?_⟩
  rw [Dependency.solve, failed]
  rfl

/-- Induction over a dependency and what it needs. -/
@[elab_as_elim]
theorem Dependency.induction {motive : Dependency → Prop} (scheme : ∀ s, motive (.scheme s))
    (function : ∀ call needs, (∀ d ∈ needs, motive d) → motive (.function call needs))
    (d : Dependency) : motive d :=
  @Dependency.rec motive (fun ds => ∀ d ∈ ds, motive d) scheme function
    (fun _ member => absurd member List.not_mem_nil)
    (fun _ _ here later => List.forall_mem_cons.mpr ⟨here, later⟩) d

theorem takersUnder_cases {parent taker : Dependency} {needs : List Dependency}
    (member : taker ∈ takersUnder parent needs) :
    taker = parent ∨ ∃ d ∈ needs, taker ∈ d.takers := by
  induction needs with
  | nil => cases member
  | cons d needs ih =>
      cases d with
      | scheme s =>
          rw [takersUnder, List.mem_cons] at member
          rcases member with same | later
          · exact .inl same
          · refine (ih later).imp_right ?_
            rintro ⟨d, need, there⟩
            exact ⟨d, List.mem_cons_of_mem _ need, there⟩
      | function call needs' =>
          rw [takersUnder, List.mem_append] at member
          rcases member with here | later
          · exact .inr ⟨_, List.mem_cons_self, here⟩
          · refine (ih later).imp_right ?_
            rintro ⟨d, need, there⟩
            exact ⟨d, List.mem_cons_of_mem _ need, there⟩

/-- A dependency rejects when one in its tree that takes a scheme does. -/
theorem rejects_of_taker {d taker : Dependency} (member : taker ∈ d.takers)
    (rejects : taker.rejects) : d.rejects := by
  induction d using Dependency.induction with
  | scheme s =>
      rw [Dependency.takers, List.mem_singleton] at member
      rwa [member] at rejects
  | function call needs ih =>
      rw [Dependency.takers] at member
      rcases takersUnder_cases member with rfl | ⟨d, need, there⟩
      · exact rejects
      · exact rejects_of_need need (ih d need there)

theorem exists_schemes_of_schemesOf {ds : List Dependency} (declared : schemesOf ds ≠ []) :
    ∃ d ∈ ds, d.schemes ≠ [] := by
  induction ds with
  | nil => exact absurd rfl declared
  | cons d ds ih =>
      by_cases here : d.schemes = []
      · rw [schemesOf, here, List.nil_append] at declared
        obtain ⟨d', member, schemes⟩ := ih declared
        exact ⟨d', List.mem_cons_of_mem d member, schemes⟩
      · exact ⟨d, List.mem_cons_self, here⟩

/-- What is taken below a need is taken below its parent. -/
theorem takersUnder_ne_nil {parent d : Dependency} {needs : List Dependency} (need : d ∈ needs)
    (taken : d.takers ≠ []) : takersUnder parent needs ≠ [] := by
  induction needs with
  | nil => cases need
  | cons other needs ih =>
      cases other with
      | scheme s => exact List.cons_ne_nil _ _
      | function call needs' =>
          rw [takersUnder]
          intro empty
          obtain ⟨here, later⟩ := List.append_eq_nil_iff.mp empty
          rcases List.mem_cons.mp need with rfl | below
          · exact taken here
          · exact ih below later

/-- A scheme that is declared is taken by some dependency. -/
theorem takers_ne_nil {d : Dependency} (declared : d.schemes ≠ []) : d.takers ≠ [] := by
  induction d using Dependency.induction with
  | scheme s =>
      rw [Dependency.takers]
      exact List.cons_ne_nil _ _
  | function call needs ih =>
      rw [Dependency.schemes] at declared
      obtain ⟨d, need, schemes⟩ := exists_schemes_of_schemesOf declared
      rw [Dependency.takers]
      exact takersUnder_ne_nil need (ih d need schemes)

/-! ## The document -/

/-- The entry of the document for a method of a path. -/
def documented (document : Document) (path method : String) : Option Entry :=
  (document.lookup path).bind fun item => item.lookup method

theorem openapi_append (first later : List Operation) :
    openapi (first ++ later) = later.foldl addOperation (openapi first) :=
  List.foldl_append

theorem documented_addOperation (paths : Document) (operation : Operation) (path method : String) :
    documented (addOperation paths operation) path method =
      if operation.includeInSchema ∧ operation.path = path ∧ operation.method = method then
        some operation.entry
      else documented paths path method := by
  unfold addOperation
  by_cases included : operation.includeInSchema
  · rw [if_pos included, documented, lookup_assign]
    by_cases here : path = operation.path
    · subst here
      rw [if_pos rfl, Option.bind_some, lookup_assign]
      by_cases own : method = operation.method
      · simp [own, included]
      · have other : ¬ operation.method = method := fun same => own same.symm
        rw [if_neg own, if_neg (by simp [other]), documented]
        cases paths.lookup operation.path with
        | none => rfl
        | some item => rfl
    · have other : ¬ operation.path = path := fun same => here same.symm
      rw [if_neg here, if_neg (by simp [other]), documented]
  · simp [included]

/-- The document lists the operation: it is included in the schema, and no later one
replaces it. -/
structure Listed (operations : List Operation) (operation : Operation) : Prop where
  included : operation.includeInSchema
  last : ∃ before after, operations = before ++ operation :: after ∧
    ∀ later ∈ after, ¬ (later.includeInSchema ∧ later.path = operation.path ∧
      later.method = operation.method)

theorem documented_of_listed {operations : List Operation} {operation : Operation}
    (listed : Listed operations operation) :
    documented (openapi operations) operation.path operation.method = some operation.entry := by
  obtain ⟨before, after, rfl, last⟩ := listed.last
  rw [openapi_append, List.foldl_cons]
  have here : documented (addOperation (openapi before) operation) operation.path operation.method =
      some operation.entry := by
    rw [documented_addOperation, if_pos ⟨listed.included, rfl, rfl⟩]
  generalize addOperation (openapi before) operation = paths at here
  clear listed before
  induction after generalizing paths with
  | nil => exact here
  | cons later after ih =>
      obtain ⟨other, rest⟩ := List.forall_mem_cons.mp last
      refine ih rest (addOperation paths later) ?_
      rw [documented_addOperation, if_neg other, here]

/-! ## Soundness -/

/-- When the audit passes, no operation of the document under a path that is not covered
is without a scheme. -/
theorem ne_open_of_passes {publicPrefixes publicPaths : List String} {paths : Document}
    (passes : assertRoutesProtected publicPrefixes publicPaths paths = .ok ())
    {path method : String} {entry : Entry} (uncovered : ¬ covered publicPrefixes publicPaths path)
    (found : documented paths path method = some entry) : entry ≠ .operation true [] := by
  rintro rfl
  have clean : unprotected publicPrefixes publicPaths paths = [] := by
    unfold assertRoutesProtected at passes
    split at passes
    · assumption
    · cases passes
  obtain ⟨item, there, held⟩ := Option.bind_eq_some_iff.mp found
  obtain ⟨before, after, split, -⟩ := List.lookup_eq_some_iff.mp there
  obtain ⟨before', after', split', -⟩ := List.lookup_eq_some_iff.mp held
  have line : upper method ++ " " ++ path ∈ unprotectedIn path item := by
    refine List.mem_filterMap.mpr ⟨(method, .operation true []), ?_, rfl⟩
    rw [split']
    exact List.mem_append_right before' List.mem_cons_self
  have reported : upper method ++ " " ++ path ∈ unprotected publicPrefixes publicPaths paths := by
    refine List.mem_flatMap.mpr ⟨(path, item), ?_, ?_⟩
    · rw [split]
      exact List.mem_append_right before List.mem_cons_self
    · simpa only [if_neg uncovered] using line
  rw [clean] at reported
  exact List.not_mem_nil reported

/-- **Soundness of the audit.** When the audit passes, every operation that the document
lists, under a path that is no public path and starts with no public prefix, declares
a security scheme; and it lets a request without credentials through only if every
dependency by which it declares one does. -/
theorem audit_sound (operations : List Operation) (publicPrefixes publicPaths : List String)
    (passes : assertRoutesProtected publicPrefixes publicPaths (openapi operations) = .ok ())
    (operation : Operation) (listed : Listed operations operation)
    (uncovered : ¬ covered publicPrefixes publicPaths operation.path) :
    operation.takers ≠ [] ∧
      (¬ operation.rejects → ∀ taker ∈ operation.takers, ¬ taker.rejects) := by
  have declared : schemesOf operation.dependencies ≠ [] := by
    intro none
    refine ne_open_of_passes passes uncovered (documented_of_listed listed) ?_
    rw [Operation.entry, none]
  obtain ⟨d, member, schemes⟩ := exists_schemes_of_schemesOf declared
  refine ⟨fun none => ?_, fun accepted taker taken insists => accepted ?_⟩
  · exact takers_ne_nil schemes (List.flatMap_eq_nil_iff.mp none d member)
  · obtain ⟨d, need, there⟩ := List.mem_flatMap.mp taken
    exact (solveAll_error_iff _).mpr ⟨d, need, rejects_of_taker there insists⟩

/-- A validator that knows no token. -/
def noToken (_ : String) : Except HttpError Value := .error (unauthorized "Invalid token")

/-- A route of a protected router. -/
def me : Operation :=
  { path := "/api/v1/me", method := "get", dependencies := [currentUser noToken] }

/-- A route with no dependencies. -/
def openAt (path : String) : Operation := { path, method := "get" }

/-- The protected route passes beside a public one, and rejects. -/
theorem protected_route_sound :
    me.takers ≠ [] ∧ (¬ me.rejects → ∀ taker ∈ me.takers, ¬ taker.rejects) ∧ me.rejects := by
  have sound := audit_sound [me, openAt "/api/public/ping"] ["/api/public"] [] (by decide +kernel)
    me ⟨rfl, [], [openAt "/api/public/ping"], rfl, by decide⟩ (by decide +kernel)
  exact ⟨sound.1, sound.2, _, rfl⟩

/-- A route that takes the bearer scheme and serves everyone. -/
def news : Operation := { openAt "/news" with dependencies := [optionalUser noToken] }

/-- A route left out of the schema. -/
def hidden : Operation := { openAt "/debug" with includeInSchema := false }

/-- **Open routes that pass the audit.** A route that takes the bearer scheme and serves
everyone; a route hidden from the schema; a route that shares no more than the
letters of a public prefix; and a route hidden behind a later one of the same path. -/
theorem open_routes_pass :
    (assertRoutesProtected [] [] (openapi [news]) = .ok () ∧ ¬ news.rejects) ∧
    (assertRoutesProtected [] [] (openapi [hidden]) = .ok () ∧ ¬ hidden.rejects) ∧
    (assertRoutesProtected ["/api/public"] [] (openapi [openAt "/api/publications"]) = .ok () ∧
      ¬ (openAt "/api/publications").rejects) ∧
    (assertRoutesProtected [] [] (openapi [openAt "/api/v1/me", me]) = .ok () ∧
      ¬ (openAt "/api/v1/me").rejects) := by
  refine ⟨⟨by decide +kernel, ?_⟩, ⟨by decide +kernel, ?_⟩, ⟨by decide +kernel, ?_⟩,
    ⟨by decide +kernel, ?_⟩⟩
  all_goals
    rintro ⟨e, failed⟩
    cases failed

end PyCommon.Routes
