import Mathlib.Logic.Relation
import PyCommon.Runtime.GrpcCalls

/-!
# Correlation across services

A request id is to name everything that one request brings about, in whatever services
it does so. A handler that calls another service sends its id along, in the metadata of
a gRPC call or in a header of an HTTP request, unless the call names an id of its own;
and a service takes the id it is sent, and a new one if it is sent none.

The services form a network, in which calls come from outside or from a handler that
waits for one, and every handler is resumed whenever its event loop comes to it. In every
state of the network the id of a call is the one that its origin was given: the call from
which it descends through calls that name no id, and which itself came from outside or
names one (`correlated`). This rests on the id being bound wherever a handler waits
(`Service.bound`), which is what the middleware and the interceptors are for.
-/

set_option autoImplicit false

namespace PyCommon.Correlation

open StepSystem Coroutines Grpc

variable {Peer Await Answer Message Error Result : Type}

/-! ## Carrying the id -/

/-- `any(k.lower() == key for k, _ in metadata)`. -/
def names (metadata : Metadata) (key : String) : Bool :=
  metadata.any fun entry => lower entry.1 = key

/-- `_with_request_id`. -/
def withRequestId (current : Option String) (metadata : Option Metadata) : Option Metadata :=
  match current with
  | none => metadata
  | some requestId =>
      if requestId = "" then metadata
      else if names (metadata.getD []) requestIdMetadataKey then metadata
      else some (metadata.getD [] ++ [(requestIdMetadataKey, .str requestId)])

def requestIdHeader : String := "X-Request-ID"

/-- `_propagate_request_id`. -/
def propagateRequestId (current : Option String) (headers : Metadata) : Metadata :=
  if names headers (lower requestIdHeader) then headers
  else
    match current with
    | none => headers
    | some requestId =>
        if requestId = "" then headers else headers ++ [(requestIdHeader, .str requestId)]

/-- The headers of a call as a server hands them over: the names are in lower case. -/
def arrived (headers : Metadata) : List (String × String) :=
  headers.map fun header => (lower header.1, header.2.toStr)

/-- How a service is called. -/
inductive Transport where
  | grpc
  | http (headerName : String)
  deriving DecidableEq

/-- What a client sends for what its caller has given. -/
def Transport.send : Transport → Option String → Option Metadata → Option Metadata
  | .grpc, current, metadata => withRequestId current metadata
  | .http _, current, headers => some (propagateRequestId current (headers.getD []))

/-- The id that a service gives to a call. -/
def Transport.receive : Transport → Option Metadata → String → String
  | .grpc, metadata, generated => HandlerCallDetails.requestId ⟨"", metadata⟩ generated
  | .http headerName, headers, generated =>
      requestIdOf "" (lower headerName) (arrived (headers.getD [])) generated

/-- The header in which a service looks for the id is the one in which clients send it. -/
def Transport.Standard : Transport → Prop
  | .grpc => True
  | .http headerName => lower headerName = requestIdMetadataKey

/-- The id that a call names. -/
def named (metadata : Option Metadata) : Option String :=
  metadataValue metadata requestIdMetadataKey

/-- The id of a call that is sent with an id that would be its own. -/
def pick (metadata : Option Metadata) (own generated : String) : String :=
  match named metadata with
  | some value => if value = "" then generated else value
  | none => own

theorem named_of_names {metadata : Metadata} (there : names metadata requestIdMetadataKey = true) :
    ∃ value, named (some metadata) = some value := by
  obtain ⟨entry, member, same⟩ := List.any_eq_true.mp there
  refine Option.isSome_iff_exists.mp (List.findSome?_isSome_iff.mpr ⟨entry, member, ?_⟩)
  rw [if_pos (of_decide_eq_true same)]
  rfl

theorem named_append {metadata : Metadata} {key : String} (value : String)
    (absent : names metadata requestIdMetadataKey = false)
    (standard : lower key = requestIdMetadataKey) :
    named (some metadata) = none ∧
      named (some (metadata ++ [(key, .str value)])) = some value := by
  have unnamed : named (some metadata) = none := by
    refine List.findSome?_eq_none_iff.mpr fun entry member => if_neg fun same => ?_
    exact Bool.eq_false_iff.mp absent
      (List.any_eq_true.mpr ⟨entry, member, decide_eq_true same⟩)
  refine ⟨unnamed, ?_⟩
  rw [named, metadataValue, Option.getD_some, List.findSome?_append]
  rw [named, metadataValue, Option.getD_some] at unnamed
  rw [unnamed, Option.none_or, List.findSome?_cons, if_pos standard]
  rfl

theorem lower_requestIdHeader : lower requestIdHeader = requestIdMetadataKey := by decide

theorem named_withRequestId {requestId : String} (nonempty : requestId ≠ "")
    (metadata : Option Metadata) :
    named (withRequestId (some requestId) metadata) =
      some ((named metadata).getD requestId) := by
  have given : named metadata = named (some (metadata.getD [])) := by
    cases metadata <;> rfl
  rw [withRequestId, if_neg nonempty]
  split
  · rename_i there
    obtain ⟨value, same⟩ := named_of_names there
    rw [given, same]
    rfl
  · rename_i absent
    obtain ⟨unnamed, carried⟩ := named_append requestId (Bool.eq_false_iff.mpr absent)
      (by decide : lower requestIdMetadataKey = requestIdMetadataKey)
    rw [given, unnamed, carried]
    rfl

theorem named_propagateRequestId {requestId : String} (nonempty : requestId ≠ "")
    (headers : Metadata) :
    named (some (propagateRequestId (some requestId) headers)) =
      some ((named (some headers)).getD requestId) := by
  rw [propagateRequestId, lower_requestIdHeader]
  split
  · rename_i there
    obtain ⟨value, same⟩ := named_of_names there
    rw [same]
    rfl
  · rename_i absent
    obtain ⟨unnamed, carried⟩ := named_append requestId (Bool.eq_false_iff.mpr absent)
      lower_requestIdHeader
    rw [unnamed, carried]
    rfl

theorem named_send {transport : Transport} {requestId : String} (nonempty : requestId ≠ "")
    (metadata : Option Metadata) :
    named (transport.send (some requestId) metadata) =
      some ((named metadata).getD requestId) := by
  cases transport with
  | grpc => exact named_withRequestId nonempty metadata
  | http headerName =>
      refine (named_propagateRequestId nonempty _).trans ?_
      cases metadata <;> rfl

/-- A header has arrived exactly if the call names it. -/
theorem find?_arrived (headers : Metadata) (key : String) :
    ((arrived headers).find? fun pair => pair.1 = key).map Prod.snd =
      metadataValue (some headers) key := by
  induction headers with
  | nil => rfl
  | cons entry rest ih =>
      simp only [metadataValue, Option.getD_some] at ih ⊢
      rw [arrived, List.map_cons, List.find?_cons, List.findSome?_cons]
      by_cases same : lower entry.1 = key
      · simp [same]
      · rw [if_neg same, ← ih, decide_eq_false same]
        rfl

theorem receive_eq_pick {transport : Transport} (standard : transport.Standard)
    (metadata : Option Metadata) (generated : String) :
    transport.receive metadata generated = pick metadata generated generated := by
  cases transport with
  | grpc => rfl
  | http headerName =>
      rw [Transport.Standard] at standard
      have given : named metadata =
          metadataValue (some (metadata.getD [])) requestIdMetadataKey := by
        cases metadata <;> rfl
      rw [Transport.receive, standard, requestIdOf, pick, given, ← find?_arrived]
      cases (arrived (metadata.getD [])).find? fun pair => pair.1 = requestIdMetadataKey <;> rfl

/-- A service takes the id that the caller's code has named, or else the caller's own. -/
theorem receive_send {transport : Transport} (standard : transport.Standard) {requestId : String}
    (nonempty : requestId ≠ "") (metadata : Option Metadata) (generated : String) :
    transport.receive (transport.send (some requestId) metadata) generated =
      pick metadata requestId generated := by
  rw [receive_eq_pick standard, pick, named_send nonempty, pick]
  cases named metadata with
  | none => exact if_neg nonempty
  | some value => rfl

/-! ## Services -/

/-- A service, by the code that handles a call with a given id. Wherever the code waits, the id is
bound. -/
structure Service (Await Answer Error : Type) where
  State : Type
  Message : Type
  Result : Type
  transport : Transport
  start : State
  code : String → Code World State Await Answer Message Error Result
  bound : ∀ {requestId : String} {world : World} {ls : List (Resumption World Answer Error)}
    {c : Config World State Await Message Error Result} {awaited : Await},
    (∀ l ∈ ls, Quiet l) → exec (step (code requestId)) ⟨world, .fresh start, []⟩ ls = some c →
      c.position.awaited = some awaited → c.world.currentRequestId = some requestId

theorem not_over_of_awaited {State : Type} {position : Position State Await Message Error Result}
    {awaited : Await} (waits : position.awaited = some awaited) :
    ¬ position.outcome.isSome = true := by
  unfold Position.awaited at waits
  split at waits
  · exact Bool.false_ne_true
  · cases waits

section Services

variable (typeError : Error) (qualname : Error → String) (method : String)

theorem bound_unary {b : UnaryBehavior Await Answer Error Result} (keeps : Keeps b.code)
    {requestId : String} {world : World} {ls : List (Resumption World Answer Error)}
    {c : Config World (Option (Option String) × (Option ℚ × b.State)) Await Empty Error Result}
    {awaited : Await} (quiet : ∀ l ∈ ls, Quiet l)
    (run : exec (step (servedUnary typeError qualname ⟨method, none⟩ requestId b).code)
      ⟨world, .fresh (none, (none, b.start)), []⟩ ls = some c)
    (waits : c.position.awaited = some awaited) :
    c.world.currentRequestId = some requestId := by
  obtain ⟨first, rest, rfl⟩ := begun_of_awaited run waits
  have bound := unary_bound keeps (fun l member => quiet l (List.mem_cons_of_mem _ member)) run
  exact bound.trans (if_neg (not_over_of_awaited waits))

/-- A gRPC method with a single response, behind both interceptors. -/
def Service.ofUnary (b : UnaryBehavior Await Answer Error Result) (keeps : Keeps b.code) :
    Service Await Answer Error where
  State := Option (Option String) × (Option ℚ × b.State)
  Message := Empty
  Result := Result
  transport := .grpc
  start := (none, (none, b.start))
  code requestId := (servedUnary typeError qualname ⟨method, none⟩ requestId b).code
  bound := bound_unary typeError qualname method keeps

theorem bound_stream {b : StreamBehavior Await Answer Message Error} (keeps : b.Keeps)
    {requestId : String} {world : World} {ls : List (Resumption World Answer Error)}
    {c : Config World (Option (Option String) × Iterating (Option ℚ × Iterating b.State)) Await
      Message Error Unit}
    {awaited : Await} (quiet : ∀ l ∈ ls, Quiet l)
    (run : exec (step (servedStream typeError qualname ⟨method, none⟩ requestId b).generator)
      ⟨world, .fresh (none, .calling), []⟩ ls = some c)
    (waits : c.position.awaited = some awaited) :
    c.world.currentRequestId = some requestId := by
  obtain ⟨first, rest, rfl⟩ := begun_of_awaited run waits
  have bound := stream_bound keeps (fun l member => quiet l (List.mem_cons_of_mem _ member)) run
  exact bound.trans (if_neg (not_over_of_awaited waits))

/-- A gRPC method that streams its response, behind both interceptors. -/
def Service.ofStream (b : StreamBehavior Await Answer Message Error) (keeps : b.Keeps) :
    Service Await Answer Error where
  State := Option (Option String) × Iterating (Option ℚ × Iterating b.State)
  Message := Message
  Result := Unit
  transport := .grpc
  start := (none, .calling)
  code requestId := (servedStream typeError qualname ⟨method, none⟩ requestId b).generator
  bound := bound_stream typeError qualname method keeps

/-- `clear_contextvars()` and `bind_contextvars(**bind)`, of the request id. -/
def requestContext (requestId : String) (world : World) : Unit × World :=
  ((), { world with
    contextvars := Function.update (fun _ => none) requestIdKey (some requestId) })

variable {State : Type} {app : Code World State Await Answer Message Error Result} {start : State}

/-- An application behind `RequestContextMiddleware`, which leaves its id bound. -/
def httpCode (app : Code World State Await Answer Message Error Result) (requestId : String) :
    Code World (Option Unit × State) Await Answer Message Error Result :=
  bracket (requestContext requestId) (fun _ _ world => world) app

theorem bound_http (keeps : Keeps app) {requestId : String} {world : World}
    {ls : List (Resumption World Answer Error)}
    {c : Config World (Option Unit × State) Await Message Error Result}
    {awaited : Await} (quiet : ∀ l ∈ ls, Quiet l)
    (run : exec (step (httpCode app requestId)) ⟨world, .fresh (none, start), []⟩ ls = some c)
    (waits : c.position.awaited = some awaited) :
    c.world.currentRequestId = some requestId := by
  obtain ⟨first, rest, rfl⟩ := begun_of_awaited run waits
  obtain ⟨inner, ran, rfl⟩ := Option.map_eq_some_iff.mp ((exec_bracket ..).symm.trans run)
  obtain ⟨next, taken, rest⟩ := exec_cons_eq_some.mp ran
  obtain rfl := Option.some.inj taken
  have still := kept_of_run keeps (fun l member => quiet l (List.mem_cons_of_mem _ member)) rest
  have world : (within (fun _ _ world => world) (requestContext requestId (first world)).1
      inner).world = inner.world := by
    rw [within]
    split <;> rfl
  rw [world, still]
  refine (keeps ..).trans ?_
  exact Function.update_self requestIdKey (some requestId) fun _ => none

/-- An HTTP service. -/
def Service.ofHttp (headerName : String) (start : State)
    (app : Code World State Await Answer Message Error Result) (keeps : Keeps app) :
    Service Await Answer Error where
  State := Option Unit × State
  Message := Message
  Result := Result
  transport := .http headerName
  start := (none, start)
  code := httpCode app
  bound := bound_http keeps

end Services

/-! ## The network -/

/-- What made a call: something outside, or the handler of a call. -/
inductive Cause where
  | outside
  | handler (caller : ℕ)
  deriving DecidableEq

/-- A call of a service, with the metadata that its caller's code gave it, the id that would be
generated for it, and the one it was given. -/
structure Call (Peer : Type) where
  peer : Peer
  cause : Cause
  metadata : Option Metadata
  generated : {generated : String // generated ≠ ""}
  requestId : String
  world : World

/-- What resumes a handler, without touching the context of its task. -/
abbrev Resumed (Answer Error : Type) := {l : Resumption World Answer Error // Quiet l}

/-- The calls there have been, and what has resumed their handlers. -/
structure Network (Peer Answer Error : Type) where
  calls : List (Call Peer) := []
  resumed : ℕ → List (Resumed Answer Error) := fun _ => []

inductive Event (Peer Answer Error : Type) where
  | arrive (peer : Peer) (metadata : Option Metadata)
      (generated : {generated : String // generated ≠ ""}) (world : World)
  | resume (caller : ℕ) (l : Resumed Answer Error)
  | request (caller : ℕ) (generated : {generated : String // generated ≠ ""}) (world : World)

variable {Error : Type}

/-- The world of a handler that has been resumed so often, and what it waits for. -/
def Service.run (service : Service Await Answer Error) (requestId : String) (world : World)
    (resumed : List (Resumed Answer Error)) : Option (World × Option Await) :=
  (exec (step (service.code requestId)) ⟨world, .fresh service.start, []⟩
    (resumed.map Subtype.val)).map fun c => (c.world, c.position.awaited)

theorem Service.bound_of_run {service : Service Await Answer Error} {requestId : String}
    {world current : World} {resumed : List (Resumed Answer Error)} {awaited : Await}
    (run : service.run requestId world resumed = some (current, some awaited)) :
    current.currentRequestId = some requestId := by
  obtain ⟨c, ran, same⟩ := Option.map_eq_some_iff.mp run
  obtain ⟨rfl, waits⟩ := Prod.mk.inj same
  refine service.bound (fun l member => ?_) ran waits
  obtain ⟨quiet, -, rfl⟩ := List.mem_map.mp member
  exact quiet.2

namespace Network

variable (services : Peer → Service Await Answer Error)
  (outbound : Await → Option (Peer × Option Metadata)) (s : Network Peer Answer Error)

/-- The world of the handler of a call, and what it waits for. -/
def moment (i : ℕ) : Option (World × Option Await) :=
  s.calls[i]?.bind fun call =>
    (services call.peer).run call.requestId call.world (s.resumed i)

def add (call : Call Peer) : Network Peer Answer Error :=
  { s with calls := s.calls ++ [call] }

/-- A handler that waits for another service has made a call. -/
def step : Event Peer Answer Error → Option (Network Peer Answer Error)
  | .arrive peer metadata generated world =>
      some (s.add
        { peer, cause := .outside, metadata, generated, world
          requestId := (services peer).transport.receive metadata generated })
  | .resume caller l =>
      let next := { s with
        resumed := Function.update s.resumed caller (s.resumed caller ++ [l]) }
      if (next.moment services caller).isSome then some next else none
  | .request caller generated world =>
      (s.moment services caller).bind fun moment =>
        (moment.2.bind outbound).map fun sent =>
          s.add
            { peer := sent.1, cause := .handler caller, metadata := sent.2, generated, world
              requestId := (services sent.1).transport.receive
                ((services sent.1).transport.send moment.1.currentRequestId sent.2) generated }

end Network

/-- A call that came from outside, or that names an id. -/
def Call.Origin (call : Call Peer) : Prop :=
  call.cause = .outside ∨ named call.metadata ≠ none

/-- The first call is of the handler that has made the second, and the second names no id. -/
def Network.Descends (s : Network Peer Answer Error) (i j : ℕ) : Prop :=
  ∃ call, s.calls[j]? = some call ∧ call.cause = .handler i ∧ named call.metadata = none

/-! ## Where an id comes from -/

/-- The id of a call, by its cause and the ids of earlier calls. -/
def Traced (calls : List (Call Peer)) (j : ℕ) (call : Call Peer) : Prop :=
  call.requestId ≠ "" ∧
    match call.cause with
    | .outside => call.requestId = pick call.metadata call.generated call.generated
    | .handler i => i < j ∧ ∃ caller, calls[i]? = some caller ∧
        call.requestId = pick call.metadata caller.requestId call.generated

theorem pick_nonempty {metadata : Option Metadata} {own generated : String} (first : own ≠ "")
    (second : generated ≠ "") : pick metadata own generated ≠ "" := by
  unfold pick
  split
  · split
    · exact second
    · assumption
  · exact first

theorem pick_named {metadata : Option Metadata} (names : named metadata ≠ none)
    (own other generated : String) : pick metadata own generated = pick metadata other generated := by
  rw [pick, pick]
  cases there : named metadata with
  | none => exact absurd there names
  | some value => rfl

theorem traced_append {calls : List (Call Peer)} {j : ℕ} {call : Call Peer}
    (traced : Traced calls j call) (later : Call Peer) (within : j ≤ calls.length) :
    Traced (calls ++ [later]) j call := by
  refine ⟨traced.1, ?_⟩
  cases cause : call.cause with
  | outside =>
      have origin := traced.2
      rw [cause] at origin
      exact origin
  | handler i =>
      have earlier := traced.2
      rw [cause] at earlier
      obtain ⟨before, caller, there, same⟩ := earlier
      refine ⟨before, caller, ?_, same⟩
      rw [List.getElem?_append_left (Nat.lt_of_lt_of_le before within)]
      exact there

theorem traced_add {calls : List (Call Peer)} {call : Call Peer}
    (traced : ∀ j call, calls[j]? = some call → Traced calls j call)
    (last : Traced calls calls.length call) :
    ∀ j other, (calls ++ [call])[j]? = some other → Traced (calls ++ [call]) j other := by
  intro j other there
  rcases Nat.lt_or_ge j calls.length with earlier | later
  · rw [List.getElem?_append_left earlier] at there
    exact traced_append (traced j other there) call (Nat.le_of_lt earlier)
  · rw [List.getElem?_append_right later, List.getElem?_singleton] at there
    obtain ⟨first, same⟩ := Option.ite_none_right_eq_some.mp there
    obtain rfl := Option.some.inj same
    obtain rfl : j = calls.length := by omega
    exact traced_append last _ (Nat.le_refl _)

variable {services : Peer → Service Await Answer Error}
  {outbound : Await → Option (Peer × Option Metadata)}

theorem traced_step (standard : ∀ peer, (services peer).transport.Standard)
    {s next : Network Peer Answer Error} {event : Event Peer Answer Error}
    (traced : ∀ j call, s.calls[j]? = some call → Traced s.calls j call)
    (taken : s.step services outbound event = some next) :
    ∀ j call, next.calls[j]? = some call → Traced next.calls j call := by
  cases event with
  | arrive peer metadata generated world =>
      obtain rfl := Option.some.inj taken
      have same := receive_eq_pick (standard peer) metadata generated
      refine traced_add traced ⟨?_, same⟩
      rw [same]
      exact pick_nonempty generated.2 generated.2
  | resume caller l =>
      rw [Network.step] at taken
      obtain ⟨-, same⟩ := Option.ite_none_right_eq_some.mp taken
      obtain rfl := Option.some.inj same
      exact traced
  | request caller generated world =>
      obtain ⟨⟨current, waits⟩, here, sends⟩ := Option.bind_eq_some_iff.mp taken
      obtain ⟨⟨peer, metadata⟩, awaits, rfl⟩ := Option.map_eq_some_iff.mp sends
      obtain ⟨awaited, rfl, -⟩ := Option.bind_eq_some_iff.mp awaits
      obtain ⟨parent, there, runs⟩ := Option.bind_eq_some_iff.mp here
      have nonempty := (traced caller parent there).1
      have same := receive_send (standard peer) nonempty metadata generated
      rw [← Service.bound_of_run runs] at same
      refine traced_add traced ⟨?_, (List.getElem?_eq_some_iff.mp there).1, parent, there, same⟩
      rw [same]
      exact pick_nonempty nonempty generated.2

/-- **Every call has the id of its origin.** -/
theorem correlated (standard : ∀ peer, (services peer).transport.Standard)
    {events : List (Event Peer Answer Error)} {s : Network Peer Answer Error}
    (run : exec (Network.step services outbound) {} events = some s) {j : ℕ} {call : Call Peer}
    (there : s.calls[j]? = some call) :
    ∃ i origin, s.calls[i]? = some origin ∧ origin.Origin ∧
      Relation.ReflTransGen s.Descends i j ∧
      origin.requestId = pick origin.metadata origin.generated origin.generated ∧
      call.requestId = origin.requestId := by
  have traced := exec_invariant_always (fun _ _ _ traced taken => traced_step standard traced taken)
    run (fun j call there => by cases there)
  induction j using Nat.strong_induction_on generalizing call with
  | h j ih =>
      have settled := (traced j call there).2
      by_cases names : named call.metadata = none
      · cases cause : call.cause with
        | outside =>
            rw [cause] at settled
            exact ⟨j, call, there, .inl cause, .refl, settled, rfl⟩
        | handler i =>
            rw [cause] at settled
            obtain ⟨before, caller, found, same⟩ := settled
            obtain ⟨first, origin, known, comes, chain, given, still⟩ := ih i before found
            refine ⟨first, origin, known, comes, chain.tail ⟨call, there, cause, names⟩, given, ?_⟩
            rw [same, pick, names, still]
      · refine ⟨j, call, there, .inr names, .refl, ?_, rfl⟩
        cases cause : call.cause with
        | outside =>
            rw [cause] at settled
            exact settled
        | handler i =>
            rw [cause] at settled
            obtain ⟨-, caller, -, same⟩ := settled
            exact same.trans (pick_named names ..)

/-! ## A request that comes back -/

/-- A handler that calls the other service and returns. -/
def calling (peer : Bool) : Code World Bool Bool Unit Empty String Unit :=
  fun called _ world => (world, if called then .ends (.ok ()) else .awaits peer true)

/-- A gateway, and a backend that calls the gateway in its turn. -/
def backAndForth : Bool → Service Bool Unit String
  | false => .ofHttp "X-Request-ID" false (calling true) fun _ _ _ => rfl
  | true => .ofUnary "TypeError" id "/probe.Probe/Back" ⟨Bool, false, calling false⟩
      fun _ _ _ => rfl

def begins : Resumed Unit String := ⟨⟨id, .next⟩, fun _ => rfl⟩

def returning : List (Event Bool Unit String) :=
  [.arrive false (some [("x-request-id", .str "r1")]) ⟨"g0", by decide⟩ {}, .resume 0 begins,
    .request 0 ⟨"g1", by decide⟩ {}, .resume 1 begins, .request 1 ⟨"g2", by decide⟩ {}]

theorem returning_correlated : ∃ s,
    exec (Network.step backAndForth fun peer => some (peer, none)) {} returning = some s ∧
      ∃ call, s.calls[2]? = some call ∧ call.requestId = "r1" ∧
        ∃ i origin, s.calls[i]? = some origin ∧ origin.Origin ∧
          Relation.ReflTransGen s.Descends i 2 ∧
          origin.requestId = pick origin.metadata origin.generated origin.generated ∧
          call.requestId = origin.requestId := by
  obtain ⟨s, run, call, there, same⟩ : ∃ s,
      exec (Network.step backAndForth fun peer => some (peer, none)) {} returning = some s ∧
        ∃ call, s.calls[2]? = some call ∧ call.requestId = "r1" :=
    ⟨_, rfl, _, rfl, by decide +kernel⟩
  have standard : ∀ peer, (backAndForth peer).transport.Standard := by
    intro peer
    cases peer with
    | false => exact (by decide : lower "X-Request-ID" = requestIdMetadataKey)
    | true => exact trivial
  exact ⟨s, run, call, there, same, correlated standard run there⟩

end PyCommon.Correlation
