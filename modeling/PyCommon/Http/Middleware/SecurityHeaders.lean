import Mathlib.Data.List.Nodup
import PyCommon.Http.Middleware.OneResponse
import PyCommon.Lib.HeaderLists
import PyCommon.Lib.Outcomes

/-!
# Security headers

`SecurityHeadersMiddleware` sits outside the request context. It only wraps `send`, and sets its
headers on every start that comes by: five at least, a content security policy if one is
configured, and the transport security header on a connection whose scheme is `https`. A value
that latin-1 cannot encode makes `send` raise instead.

Whatever the application does, and whenever the deadline expires or a cancellation strikes, every
start that leaves the standard stack carries each of these headers once with the configured value,
and the request id once; a start of the application keeps its other headers in their order
(`guarded_always`).
-/

set_option autoImplicit false

namespace PyCommon.Middleware

open HeaderLists StepSystem

/-! ## The middleware -/

structure SecurityHeadersMiddleware where
  hsts : Bool := true
  hstsMaxAge : ℤ := 31536000
  frameOptions : String := "DENY"
  contentTypeOptions : String := "nosniff"
  referrerPolicy : String := "strict-origin-when-cross-origin"
  permissionsPolicy : String := "geolocation=(), microphone=(), camera=()"
  contentSecurityPolicy : Option String := none

namespace SecurityHeadersMiddleware

/-- What `send_wrapper` sets, in order. The scheme is the one of the connection, if it has one. -/
def items (security : SecurityHeadersMiddleware) (scheme : Option String) :
    List (String × String) :=
  [("X-Content-Type-Options", security.contentTypeOptions),
    ("X-Frame-Options", security.frameOptions),
    ("Referrer-Policy", security.referrerPolicy),
    ("Permissions-Policy", security.permissionsPolicy)] ++
  (match security.contentSecurityPolicy with
    | some policy => if policy = "" then [] else [("Content-Security-Policy", policy)]
    | none => []) ++
  if security.hsts ∧ scheme = some "https" then
    [("Strict-Transport-Security",
      "max-age=" ++ toString security.hstsMaxAge ++ "; includeSubDomains")]
  else []

/-- `headers[key] = value`, which encodes both. -/
def setItem (headers : List (Bytes × Bytes)) (item : String × String) :
    Except PyExc (List (Bytes × Bytes)) := do
  let key ← encodeLatin1 (lower item.1)
  let value ← encodeLatin1 item.2
  return put key value headers

/-- `send_wrapper`, up to the call of the server's `send`. -/
def sendWrapper (security : SecurityHeadersMiddleware) (scheme : Option String) :
    SendMessage → Except PyExc SendMessage
  | .start status headers => do
      let headers ← (security.items scheme).foldlM setItem headers
      return .start status headers
  | message => .ok message

end SecurityHeadersMiddleware

/-! ## What is set -/

namespace SecurityHeadersMiddleware

variable {security : SecurityHeadersMiddleware} {scheme : Option String}

/-- A header with its name and its value as they go out. -/
def encodeItem (item : String × String) : Except PyExc (Bytes × Bytes) := do
  let key ← encodeLatin1 (lower item.1)
  let value ← encodeLatin1 item.2
  return (key, value)

/-- The pairs that a start is given, unless a value cannot be encoded. -/
def pairs (security : SecurityHeadersMiddleware) (scheme : Option String) :
    Except PyExc (List (Bytes × Bytes)) := (security.items scheme).mapM encodeItem

theorem encodeItem_eq_ok {item : String × String} {pair : Bytes × Bytes} :
    encodeItem item = .ok pair ↔
      encodeLatin1 (lower item.1) = .ok pair.1 ∧ encodeLatin1 item.2 = .ok pair.2 := by
  obtain ⟨key, value⟩ := pair
  constructor
  · intro encodes
    obtain ⟨_, named, valued⟩ := Outcome.bind_eq_ok.mp encodes
    obtain ⟨_, read, paired⟩ := Outcome.bind_eq_ok.mp valued
    obtain ⟨rfl, rfl⟩ := Prod.mk.inj (Except.ok.inj paired)
    exact ⟨named, read⟩
  · rintro ⟨named, read⟩
    rw [encodeItem, named, read]
    rfl

theorem mapM_encodeItem_cons {item : String × String} {rest : List (String × String)}
    {encoded : List (Bytes × Bytes)} (encodes : (item :: rest).mapM encodeItem = .ok encoded) :
    ∃ pair later, encoded = pair :: later ∧ encodeItem item = .ok pair ∧
      rest.mapM encodeItem = .ok later := by
  rw [List.mapM_cons] at encodes
  obtain ⟨pair, first, tail⟩ := Outcome.bind_eq_ok.mp encodes
  obtain ⟨later, second, made⟩ := Outcome.bind_eq_ok.mp tail
  exact ⟨pair, later, (Except.ok.inj made).symm, first, second⟩

theorem foldlM_setItem {items : List (String × String)} {encoded headers : List (Bytes × Bytes)}
    (encodes : items.mapM encodeItem = .ok encoded) :
    items.foldlM setItem headers = .ok (putAll encoded headers) := by
  induction items generalizing encoded headers with
  | nil =>
      obtain rfl := Except.ok.inj encodes
      rfl
  | cons item rest ih =>
      obtain ⟨pair, later, rfl, first, second⟩ := mapM_encodeItem_cons encodes
      obtain ⟨named, read⟩ := encodeItem_eq_ok.mp first
      rw [List.foldlM_cons, setItem, named, read]
      exact ih second

/-- A start as it is handed to the server. -/
theorem sendWrapper_start {encoded : List (Bytes × Bytes)}
    (encodes : security.pairs scheme = .ok encoded) (status : ℤ) (headers : List (Bytes × Bytes)) :
    security.sendWrapper scheme (.start status headers) =
      .ok (.start status (putAll encoded headers)) := by
  rw [sendWrapper, foldlM_setItem encodes]
  rfl

/-- The names of the headers, as they are compared. -/
def names : List Bytes :=
  [encode "x-content-type-options", encode "x-frame-options", encode "referrer-policy",
    encode "permissions-policy", encode "content-security-policy",
    encode "strict-transport-security"]

theorem nodup_names : names.Nodup := by decide +kernel

/-- The names that may be set, as the source writes them. -/
def titles : List String :=
  ["X-Content-Type-Options", "X-Frame-Options", "Referrer-Policy", "Permissions-Policy"] ++
    ["Content-Security-Policy"] ++ ["Strict-Transport-Security"]

theorem titles_of_items : ((security.items scheme).map Prod.fst).Sublist titles := by
  unfold items
  rw [List.map_append, List.map_append]
  refine ((List.Sublist.refl _).append ?_).append ?_
  · cases security.contentSecurityPolicy with
    | none => exact List.nil_sublist _
    | some policy =>
        dsimp only
        split
        · exact List.nil_sublist _
        · exact List.Sublist.refl _
  · split
    · exact List.Sublist.refl _
    · exact List.nil_sublist _

/-- A name as it goes out. -/
def nameOf (title : String) : Bytes := (encodeLatin1 (lower title)).toOption.getD []

theorem map_fst_of_mapM {items : List (String × String)} {encoded : List (Bytes × Bytes)}
    (encodes : items.mapM encodeItem = .ok encoded) :
    encoded.map Prod.fst = (items.map Prod.fst).map nameOf := by
  induction items generalizing encoded with
  | nil =>
      obtain rfl := Except.ok.inj encodes
      rfl
  | cons item rest ih =>
      obtain ⟨pair, later, rfl, first, second⟩ := mapM_encodeItem_cons encodes
      have named : nameOf item.1 = pair.1 := by rw [nameOf, (encodeItem_eq_ok.mp first).1]; rfl
      rw [List.map_cons, List.map_cons, List.map_cons, named, ih second]

/-- The headers that are set have different names. -/
theorem names_of_pairs {encoded : List (Bytes × Bytes)}
    (encodes : security.pairs scheme = .ok encoded) : (encoded.map Prod.fst).Sublist names := by
  rw [map_fst_of_mapM encodes]
  exact titles_of_items.map nameOf

end SecurityHeadersMiddleware

/-! ## Stamped messages -/

section Stamped

variable {nest : Nest} {s t : State}

variable (nest) in
/-- A message as the request context passes it on. -/
def Stamped (message : SendMessage) : Prop :=
  ∃ inner, message = nest.context.sendWrapper nest.ctx inner

variable (nest) in
/-- What is left of the answer of the request context: nothing, or messages it has stamped. -/
def StampedRest (rest : App) : Prop :=
  rest.result.isSome ∨ ∃ messages, rest = .sending messages ∧ ∀ m ∈ messages, Stamped nest m

theorem stampedRest_handler (started : Bool) (e : PyExc) :
    StampedRest nest (nest.context.handler nest.ctx nest.scope started e) := by
  unfold RequestContextMiddleware.handler
  split
  · split
    · exact .inl rfl
    · refine .inr ⟨_, rfl, fun message member => ?_⟩
      obtain ⟨inner, _, rfl⟩ := List.mem_map.mp member
      exact ⟨inner, rfl⟩
  · exact .inl rfl

theorem stampedRest_answer {rest after : App} {a : Answer} (stamped : StampedRest nest rest)
    (moved : rest.answer a = some after) : StampedRest nest after := by
  rcases stamped with ended | ⟨messages, rfl, stamped⟩
  · rw [App.result_eq_none_of_answer moved] at ended
    cases ended
  · obtain ⟨message, later, rfl, ⟨_, rfl⟩ | ⟨_, _, rfl⟩⟩ := App.answer_sending moved
    · exact .inr ⟨later, rfl, fun m member => stamped m (List.mem_cons_of_mem _ member)⟩
    · exact .inl rfl

theorem stamped_of_pending {rest : App} {message : SendMessage} (stamped : StampedRest nest rest)
    (pending : rest.pending = some message) : Stamped nest message := by
  rcases stamped with ended | ⟨messages, rfl, stamped⟩
  · cases rest with
    | send => cases ended
    | _ => cases pending
  · cases messages with
    | nil => cases pending
    | cons first later =>
        obtain rfl := Option.some.inj pending
        exact stamped _ List.mem_cons_self

variable (nest) in
/-- Where the stamp of the request context is: on everything that has reached the server, and on
what is left of its own answer. What is the application's was handed over by it. -/
structure Stamping (s : State) : Prop where
  mode : s.call.mode ≠ .passing
  finishing : ∀ rest, s.call.mode = .finishing rest → StampedRest nest rest
  reached : ∀ d ∈ s.reached, Stamped nest d.message
  own : ∀ d ∈ s.reached, d.own = true →
    ∃ message ∈ s.handed, d.message = nest.context.sendWrapper nest.ctx message

theorem current_of_running (running : s.running = true) : s.current = s.app := by
  obtain ⟨⟨mode, mode', mode'', call⟩, _, _, _⟩ := s
  simp only [State.running] at running
  cases mode with
  | finishing rest => cases running
  | _ =>
      cases mode' with
      | finishing rest => cases running
      | _ =>
          cases mode'' with
          | finishing rest => cases running
          | _ => rfl

theorem stampedRest_settle {started : Bool} {call : TimeoutCall} {rest : App}
    (mode : (Layer.settle TimeoutCall.current (nest.context.handler nest.ctx nest.scope) started
      call).mode = .finishing rest) : StampedRest nest rest := by
  unfold Layer.settle at mode
  split at mode
  · obtain rfl := Mode.finishing.inj mode
    exact .inl rfl
  · obtain rfl := Mode.finishing.inj mode
    exact stampedRest_handler started _
  · cases mode

theorem mode_settle_ne_passing {started : Bool} {call : TimeoutCall} :
    (Layer.settle TimeoutCall.current (nest.context.handler nest.ctx nest.scope) started
      call).mode ≠ .passing := by
  unfold Layer.settle
  split <;> intro same <;> cases same

variable (nest) in
theorem stamping_start : Stamping nest nest.start := by
  have call : nest.start.call = Layer.settle TimeoutCall.current
      (nest.context.handler nest.ctx nest.scope) false
      (nest.timeout.call nest.ctx nest.scope (nest.limit.call nest.ctx nest.scope nest.app)) := by
    rw [Nest.start, RequestContextMiddleware.call, if_neg (not_not.mpr nest.http)]
  refine ⟨?_, ?_, ?_, ?_⟩
  · rw [call]
    exact mode_settle_ne_passing
  · intro rest mode
    rw [call] at mode
    exact stampedRest_settle mode
  · intro d member
    exact absurd member List.not_mem_nil
  · intro d member
    exact absurd member List.not_mem_nil

/-- What an await delivers is stamped, and the application's own has been handed over. -/
theorem stamped_of_deliver (stamping : Stamping nest s) {a : Answer} {d : Delivery}
    (member : d ∈ nest.deliver s a) :
    Stamped nest d.message ∧
      (d.own = true → ∃ message ∈ Nest.hand s,
        d.message = nest.context.sendWrapper nest.ctx message) := by
  unfold Nest.deliver at member
  cases pending : s.current.pending with
  | none =>
      rw [pending] at member
      exact absurd member List.not_mem_nil
  | some message =>
      rw [pending] at member
      dsimp only at member
      split at member
      · obtain rfl := List.mem_singleton.mp member
        unfold Nest.outgoing
        cases mode : s.call.mode with
        | passing => exact absurd mode stamping.mode
        | wrapping started =>
            refine ⟨⟨message, rfl⟩, fun running => ⟨message, ?_, rfl⟩⟩
            rw [Nest.hand, if_pos running, ← current_of_running running, pending]
            exact Option.mem_toList.mpr rfl
        | finishing rest =>
            have current : s.current = rest := by rw [State.current, Layer.current, mode]
            rw [current] at pending
            refine ⟨stamped_of_pending (stamping.finishing rest mode) pending, fun running => ?_⟩
            simp only [State.running, mode] at running
            cases running
      · exact absurd member List.not_mem_nil

theorem stamping_step {l : Label} (stamping : Stamping nest s) (taken : nest.step s l = some t) :
    Stamping nest t := by
  cases l with
  | expire =>
      simp only [Nest.step] at taken
      split at taken
      · obtain rfl := Option.some.inj taken
        exact ⟨stamping.mode, stamping.finishing, stamping.reached, stamping.own⟩
      · cases taken
  | answer a =>
      obtain ⟨_, call, moved, rfl⟩ := step_answer.mp taken
      have layer : call.mode ≠ .passing ∧
          ∀ rest, call.mode = .finishing rest → StampedRest nest rest := by
        rw [Nest.move, Layer.answer] at moved
        cases mode : s.call.mode with
        | passing => exact absurd mode stamping.mode
        | wrapping started =>
            rw [mode] at moved
            obtain ⟨inner, _, rfl⟩ := Option.map_eq_some_iff.mp moved
            exact ⟨mode_settle_ne_passing, fun rest => stampedRest_settle⟩
        | finishing rest =>
            rw [mode] at moved
            obtain ⟨after, answered, rfl⟩ := Option.map_eq_some_iff.mp moved
            refine ⟨(fun same => by cases same), fun rest' same => ?_⟩
            obtain rfl := Mode.finishing.inj same
            exact stampedRest_answer (stamping.finishing rest mode) answered
      refine ⟨layer.1, layer.2, ?_, ?_⟩
      · intro d member
        rcases List.mem_append.mp member with earlier | now
        · exact stamping.reached d earlier
        · exact (stamped_of_deliver stamping now).1
      · intro d member own
        rcases List.mem_append.mp member with earlier | now
        · obtain ⟨message, handed, same⟩ := stamping.own d earlier own
          exact ⟨message, List.mem_append_left _ handed, same⟩
        · obtain ⟨message, handed, same⟩ := (stamped_of_deliver stamping now).2 own
          exact ⟨message, List.mem_append_right _ handed, same⟩

theorem stamping_of_run {ls : List Label} (run : exec nest.step nest.start ls = some s) :
    Stamping nest s :=
  exec_invariant_always (fun _ _ _ stamping => stamping_step stamping) run (stamping_start nest)

end Stamped

/-! ## Every response -/

/-- The headers of a start that leaves the stack: each of the security headers once, the request
id once, and besides these what the start had, in its order. -/
structure Guarded (nest : Nest) (encoded headers wire : List (Bytes × Bytes)) : Prop where
  secured : ∀ pair ∈ encoded, values pair.1 wire = [pair.2]
  identified : values nest.context.headerName wire = [nest.ctx.requestId]
  kept : others (nest.context.headerName :: encoded.map Prod.fst) wire =
    others (nest.context.headerName :: encoded.map Prod.fst) headers

theorem guarded_putAll {nest : Nest} {security : SecurityHeadersMiddleware}
    {scheme : Option String} {encoded : List (Bytes × Bytes)}
    (encodes : security.pairs scheme = .ok encoded)
    (apart : nest.context.headerName ∉ SecurityHeadersMiddleware.names)
    (headers : List (Bytes × Bytes)) :
    Guarded nest encoded headers
      (putAll encoded (put nest.context.headerName nest.ctx.requestId headers)) := by
  have sub := SecurityHeadersMiddleware.names_of_pairs encodes
  refine ⟨fun pair member => ?_, ?_, ?_⟩
  · exact values_putAll (SecurityHeadersMiddleware.nodup_names.sublist sub) member
  · rw [values_putAll_of_notMem fun member => apart (sub.subset member), values_put]
  · rw [others_putAll fun pair member => List.mem_cons_of_mem _ (List.mem_map_of_mem member),
      others_put List.mem_cons_self]

/-- **Every start that leaves the stack is guarded**, in every run of every application. A start
of the application keeps its other headers. -/
theorem guarded_always {nest : Nest} {security : SecurityHeadersMiddleware}
    {scheme : Option String} {encoded : List (Bytes × Bytes)}
    (encodes : security.pairs scheme = .ok encoded)
    (apart : nest.context.headerName ∉ SecurityHeadersMiddleware.names)
    {s : State} {ls : List Label} (run : exec nest.step nest.start ls = some s)
    {d : Delivery} (reached : d ∈ s.reached) {status : ℤ} {inner : List (Bytes × Bytes)}
    (start : d.message = .start status inner) :
    ∃ headers wire, security.sendWrapper scheme d.message = .ok (.start status wire) ∧
      Guarded nest encoded headers wire ∧
        (d.own = true → .start status headers ∈ s.handed) := by
  have stamping := stamping_of_run run
  have sends := SecurityHeadersMiddleware.sendWrapper_start encodes status inner
  obtain ⟨headers, stamped, own⟩ : ∃ headers,
      inner = put nest.context.headerName nest.ctx.requestId headers ∧
        (d.own = true → .start status headers ∈ s.handed) := by
    have shape {message : SendMessage}
        (same : d.message = nest.context.sendWrapper nest.ctx message) : ∃ headers,
        message = .start status headers ∧
          inner = put nest.context.headerName nest.ctx.requestId headers := by
      rw [start] at same
      cases message with
      | start status' headers =>
          obtain ⟨rfl, stamped⟩ := SendMessage.start.inj same
          exact ⟨headers, rfl, stamped⟩
      | _ => cases same
    by_cases mine : d.own = true
    · obtain ⟨message, handed, same⟩ := stamping.own d reached mine
      obtain ⟨headers, rfl, stamped⟩ := shape same
      exact ⟨headers, stamped, fun _ => handed⟩
    · obtain ⟨message, same⟩ := stamping.reached d reached
      obtain ⟨headers, _, stamped⟩ := shape same
      exact ⟨headers, stamped, fun own => absurd own mine⟩
  rw [start, sends]
  subst stamped
  exact ⟨headers, _, rfl, guarded_putAll encodes apart headers, own⟩

/-- The default headers on a connection that came over TLS. -/
def overTls : List (Bytes × Bytes) :=
  [(encode "x-content-type-options", encode "nosniff"), (encode "x-frame-options", encode "DENY"),
    (encode "referrer-policy", encode "strict-origin-when-cross-origin"),
    (encode "permissions-policy", encode "geolocation=(), microphone=(), camera=()"),
    (encode "strict-transport-security", encode "max-age=31536000; includeSubDomains")]

/-- The start of the slow handler goes out with these headers. -/
theorem slow_start_guarded :
    ∃ s ∈ exec slow.step slow.start [.answer (.slept none), .answer .sent], ∃ d ∈ s.reached,
      ∃ status headers wire,
        ({} : SecurityHeadersMiddleware).sendWrapper (some "https") d.message =
          .ok (.start status wire) ∧
        Guarded slow overTls headers wire ∧ (d.own = true → .start status headers ∈ s.handed) := by
  obtain ⟨s, run, d, reached, starts⟩ :
      ∃ s ∈ exec slow.step slow.start [.answer (.slept none), .answer .sent], ∃ d ∈ s.reached,
        d.message.isStart = true := by
    decide +kernel
  cases start : d.message with
  | start status inner =>
      have encodes : ({} : SecurityHeadersMiddleware).pairs (some "https") = .ok overTls := rfl
      exact ⟨s, run, d, reached, status,
        guarded_always encodes (by decide +kernel) run reached start⟩
  | _ =>
      rw [start] at starts
      cases starts

end PyCommon.Middleware
