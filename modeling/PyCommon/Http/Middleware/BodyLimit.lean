import Mathlib.Algebra.GroupWithZero.Nat
import PyCommon.Http.Middleware.Nest

/-!
# The body limit

`BodySizeLimitMiddleware` around an application, on a path that is not excluded. The
application is compared with itself without the middleware (`serve`): both are driven by
what their awaits come back with, and it is recorded what `receive` gave the application
and what the client received.

However the body is cut and whatever the application does about the exceptions of
`receive`, it is never given more bytes than the limit; and as long as neither the
declared nor the streamed length is above the limit the middleware cannot be told from its
absence, by the application or by the client, unless the application ends with a
`BodyTooLarge` of its own (`body_capped_and_transparent`), which is answered as if it came
from the middleware (`own_exception_answered`).

A body that is too large is answered 413 exactly when the application lets the exception
through before it has started a response, or itself sends that very response
(`oversized_answered_iff`). An application that turns it into a response of its own, as
FastAPI does with an error while it reads the body, is not overruled
(`bad_request_instead`).
-/

set_option autoImplicit false

namespace PyCommon.Middleware

open StepSystem

/-! ## An application on its own -/

/-- The messages that `receive` gives an application. -/
def givenBy : App → Answer → List ReceiveMessage
  | .receive _, .received message => [message]
  | _, _ => []

/-- What has gone out when an await comes back. -/
def sentBy (app : App) (a : Answer) : List SendMessage :=
  if Nest.forwarded a then app.pending.toList else []

/-- Where an application stands, what it was given and what its client received. -/
structure Seen where
  app : App
  given : List ReceiveMessage := []
  sent : List SendMessage := []

/-- The pending await of an application comes back. -/
def serve (s : Seen) (a : Answer) : Option Seen :=
  (s.app.answer a).map fun app =>
    { app, given := s.given ++ givenBy s.app a, sent := s.sent ++ sentBy s.app a }

/-- The body bytes of a message. -/
def bytesOf : ReceiveMessage → ℕ
  | .request body _ => body.length
  | .disconnect => 0

/-- The body bytes of messages. -/
def total (messages : List ReceiveMessage) : ℕ := (messages.map bytesOf).sum

/-- The messages of a stream that awaits come back with. -/
def streamOf (as : List Answer) : List ReceiveMessage :=
  as.flatMap fun a =>
    match a with
    | .received message => [message]
    | _ => []

theorem total_append (first later : List ReceiveMessage) :
    total (first ++ later) = total first + total later := by
  rw [total, List.map_append, List.sum_append]
  rfl

/-! ## An application behind the limit -/

/-- A call of the middleware, what it gave the application, what the client received of the
application, and what it received in all. -/
structure Limited where
  call : BodyCall
  given : List ReceiveMessage := []
  own : List SendMessage := []
  sent : List SendMessage := []

/-- What the client and, unless a response has taken its place, the application have seen. -/
def Limited.seen (s : Limited) : Seen := ⟨s.call.current, s.given, s.sent⟩

/-- The wrapped application is running. -/
def BodyCall.running (call : BodyCall) : Bool :=
  match call.mode with
  | .finishing _ => false
  | _ => true

namespace BodySizeLimitMiddleware

variable (limit : BodySizeLimitMiddleware) (ctx : Context) (scope : Scope)

/-- What `receive` gives the application for a message of the stream. -/
def passedOn (received : Option ℕ) (message : ReceiveMessage) : Except PyExc ReceiveMessage :=
  match received with
  | some received => (limit.countingReceive received message).2
  | none => .ok message

/-- The messages that the application is given when an await comes back. -/
def gives (call : BodyCall) (a : Answer) : List ReceiveMessage :=
  if call.running then
    (givenBy call.call.app a).flatMap fun message =>
      (limit.passedOn call.call.received message).toOption.toList
  else []

/-- The pending await of a call comes back. -/
def step (s : Limited) (a : Answer) : Option Limited :=
  (Layer.answer AppCall.app (limit.handler ctx scope) limit.move s.call a).map fun call =>
    { call, given := s.given ++ limit.gives s.call a,
            own := s.own ++ (if s.call.running then sentBy s.call.call.app a else []),
            sent := s.sent ++ sentBy s.call.current a }

/-- A request up to its first await. -/
def start (app : App) : Limited := { call := limit.call ctx scope app }

/-- The middleware is in charge of the connection. -/
def Limits : Prop := scope.type = .http ∧ scope.path ∉ limit.excludePaths

variable {limit ctx scope}

/-! ### Counting -/

variable (limit) in
/-- A message is passed on if the count stays within the limit, or if it has no body. -/
theorem countingReceive_cases (received : ℕ) (message : ReceiveMessage) :
    limit.countingReceive received message = (received + bytesOf message, .ok message) ∧
        (received + bytesOf message ≤ limit.maxBytes ∨ bytesOf message = 0) ∨
      limit.countingReceive received message = (received + bytesOf message, .error .bodyTooLarge) ∧
        limit.maxBytes < received + bytesOf message := by
  cases message with
  | disconnect => exact .inl ⟨rfl, .inr rfl⟩
  | request body moreBody =>
      simp only [countingReceive, bytesOf]
      by_cases exceeds : limit.maxBytes < received + body.length
      · exact .inr ⟨if_pos exceeds, exceeds⟩
      · exact .inl ⟨if_neg exceeds, .inl (Nat.le_of_not_lt exceeds)⟩

/-- A call of the application moves by a message that is counted, or by another await. -/
theorem move_cases {call next : AppCall} {a : Answer} {received : ℕ}
    (counting : call.received = some received) (moved : limit.move call a = some next) :
    (∃ k message, call.app = .receive k ∧ a = .received message ∧
        next = ⟨some (limit.countingReceive received message).1,
          k (limit.countingReceive received message).2⟩) ∨
      givenBy call.app a = [] ∧
        ∃ app, call.app.answer a = some app ∧ next = ⟨some received, app⟩ := by
  unfold move at moved
  split at moved
  · rename_i count k message known receives
    obtain rfl := Option.some.inj (known.symm.trans counting)
    exact .inl ⟨k, message, receives, rfl, (Option.some.inj moved).symm⟩
  · rename_i other
    obtain ⟨app, answered, rfl⟩ := Option.map_eq_some_iff.mp moved
    refine .inr ⟨?_, app, answered, by rw [counting]⟩
    unfold givenBy
    split
    · rename_i k message receives
      exact (other received k message counting receives rfl).elim
    · rfl

/-- The step of a call whose application is running. -/
theorem step_wrapping {s next : Limited} {a : Answer} {started : Bool}
    (wrapping : s.call.mode = .wrapping started) (taken : limit.step ctx scope s a = some next) :
    ∃ call, limit.move s.call.call a = some call ∧
      next = { call := Layer.settle AppCall.app (limit.handler ctx scope) started call,
               given := s.given ++ limit.gives s.call a,
               own := s.own ++ sentBy s.call.call.app a,
               sent := s.sent ++ sentBy s.call.call.app a } := by
  obtain ⟨⟨mode, call⟩, given, own, sent⟩ := s
  obtain rfl : mode = .wrapping started := wrapping
  obtain ⟨layer, moved, rfl⟩ := Option.map_eq_some_iff.mp taken
  obtain ⟨call', moved', rfl⟩ := Option.map_eq_some_iff.mp moved
  exact ⟨call', moved', rfl⟩

/-- The step of a call that has taken over. -/
theorem step_finishing {s next : Limited} {a : Answer} {rest : App}
    (finishing : s.call.mode = .finishing rest) (taken : limit.step ctx scope s a = some next) :
    ∃ rest', rest.answer a = some rest' ∧
      next =
        { s with call := ⟨.finishing rest', s.call.call⟩, sent := s.sent ++ sentBy rest a } := by
  obtain ⟨⟨mode, call⟩, given, own, sent⟩ := s
  obtain rfl : mode = .finishing rest := finishing
  obtain ⟨layer, moved, rfl⟩ := Option.map_eq_some_iff.mp taken
  obtain ⟨rest', answered, rfl⟩ := Option.map_eq_some_iff.mp moved
  refine ⟨rest', answered, ?_⟩
  simp only [gives, BodyCall.running, Bool.false_eq_true, if_false, List.append_nil,
    BodyCall.current, Layer.current]

variable (ctx) in
/-- A request that the middleware is in charge of is answered at once, or its application
is called and counted. -/
theorem start_cases (limits : limit.Limits scope) (app : App) :
    (∃ declared ∈ contentLength scope, (limit.maxBytes : ℤ) < declared) ∧
        limit.start ctx scope app =
          { call := ⟨.finishing (.sending (limit.reject ctx scope)), ⟨some 0, app⟩⟩ } ∨
      (¬ ∃ declared ∈ contentLength scope, (limit.maxBytes : ℤ) < declared) ∧
        limit.start ctx scope app =
          { call := Layer.settle AppCall.app (limit.handler ctx scope) false ⟨some 0, app⟩ } := by
  have charged : ¬ (scope.type ≠ .http ∨ scope.path ∈ limit.excludePaths) := by
    rw [not_or, not_not]
    exact limits
  rw [start, call, if_neg charged]
  by_cases declares : ∃ declared ∈ contentLength scope, (limit.maxBytes : ℤ) < declared
  · rw [if_pos declares]
    exact .inl ⟨declares, rfl⟩
  · rw [if_neg declares]
    exact .inr ⟨declares, rfl⟩

/-! ### The cap -/

variable (limit) in
/-- The application has been given no more than was counted, and no more than the limit. -/
structure Capped (s : Limited) : Prop where
  counting : s.call.mode ≠ .passing
  counted : ∃ received, s.call.call.received = some received ∧ total s.given ≤ received
  capped : total s.given ≤ limit.maxBytes

variable (limit ctx scope) in
theorem settle_spec (started : Bool) (call : AppCall) :
    (Layer.settle AppCall.app (limit.handler ctx scope) started call).mode ≠ .passing ∧
      (Layer.settle AppCall.app (limit.handler ctx scope) started call).call = call := by
  unfold Layer.settle
  split
  · exact ⟨nofun, rfl⟩
  · exact ⟨nofun, rfl⟩
  · exact ⟨nofun, rfl⟩

/-- A layer whose application has moved is capped when what it was given is. -/
theorem capped_settle {started : Bool} {received : ℕ} {app : App} {given : List ReceiveMessage}
    {own sent : List SendMessage} (counted : total given ≤ received)
    (capped : total given ≤ limit.maxBytes) :
    limit.Capped ⟨Layer.settle AppCall.app (limit.handler ctx scope) started ⟨some received, app⟩,
      given, own, sent⟩ := by
  obtain ⟨wraps, keeps⟩ := settle_spec limit ctx scope started ⟨some received, app⟩
  refine ⟨wraps, ⟨received, ?_, counted⟩, capped⟩
  rw [keeps]

theorem capped_start (limits : limit.Limits scope) (app : App) :
    limit.Capped (limit.start ctx scope app) := by
  rcases start_cases ctx limits app with ⟨_, starts⟩ | ⟨_, starts⟩
  · rw [starts]
    exact ⟨nofun, ⟨0, rfl, Nat.le_refl 0⟩, Nat.zero_le _⟩
  · rw [starts]
    exact capped_settle (Nat.le_refl 0) (Nat.zero_le _)

/-- What a running application is given is counted first. -/
theorem gives_of_counted {call : BodyCall} {k : Except PyExc ReceiveMessage → App}
    {message : ReceiveMessage} {received : ℕ} (running : call.running = true)
    (counting : call.call.received = some received) (receives : call.call.app = .receive k) :
    limit.gives call (.received message) =
      (limit.countingReceive received message).2.toOption.toList := by
  rw [gives, if_pos running, receives, counting]
  exact List.flatMap_singleton ..

theorem gives_of_not_received {call : BodyCall} {a : Answer}
    (other : givenBy call.call.app a = []) : limit.gives call a = [] := by
  rw [gives, other]
  split <;> rfl

/-- No step takes the application above the limit. -/
theorem capped_step {s next : Limited} {a : Answer} (before : limit.Capped s)
    (taken : limit.step ctx scope s a = some next) : limit.Capped next := by
  obtain ⟨received, counting, counted⟩ := before.counted
  cases mode : s.call.mode with
  | passing => exact absurd mode before.counting
  | finishing rest =>
      obtain ⟨rest', _, rfl⟩ := step_finishing mode taken
      exact ⟨nofun, ⟨received, counting, counted⟩, before.capped⟩
  | wrapping started =>
      have running : s.call.running = true := by rw [BodyCall.running, mode]
      obtain ⟨call, moved, rfl⟩ := step_wrapping mode taken
      rcases move_cases counting moved with ⟨k, message, receives, rfl, rfl⟩ | ⟨other, app, _, rfl⟩
      · have gives : limit.gives s.call (.received message) =
            (limit.countingReceive received message).2.toOption.toList :=
          gives_of_counted running counting receives
        rcases countingReceive_cases limit received message with ⟨counts, fits⟩ | ⟨counts, _⟩
        · have given : total (s.given ++ limit.gives s.call (.received message)) =
              total s.given + bytesOf message := by
            rw [total_append, gives, counts]
            rfl
          apply capped_settle
          · rw [given, counts]
            exact Nat.add_le_add_right counted _
          · rw [given]
            rcases fits with fits | empty
            · omega
            · rw [empty]
              exact before.capped
        · have given : total (s.given ++ limit.gives s.call (.received message)) =
              total s.given := by
            rw [gives, counts]
            exact congrArg total (List.append_nil _)
          apply capped_settle
          · rw [given, counts]
            exact Nat.le_add_right_of_le counted
          · rw [given]
            exact before.capped
      · have given : s.given ++ limit.gives s.call a = s.given := by
          rw [gives_of_not_received other, List.append_nil]
        apply capped_settle
        · rw [given]
          exact counted
        · rw [given]
          exact before.capped

/-! ### Transparency -/

/-- The call behind the middleware stands where the application on its own stands. -/
structure Mirrors (s : Limited) (u : Seen) : Prop where
  call : s.call.call = ⟨some (total u.given), u.app⟩
  running : u.app.result = none → ∃ started, s.call.mode = .wrapping started
  ended : u.app.result ≠ none → s.call.mode = .finishing u.app
  given : s.given = u.given
  sent : s.sent = u.sent

theorem Mirrors.seen {s : Limited} {u : Seen} (mirrors : Mirrors s u) : s.seen = u := by
  obtain ⟨app, given, sent⟩ := u
  have current : s.call.current = app := by
    cases result : app.result with
    | none =>
        obtain ⟨started, mode⟩ := mirrors.running result
        rw [BodyCall.current, Layer.current, mode, mirrors.call]
    | some result' =>
        have mode := mirrors.ended (by simp [result])
        rw [BodyCall.current, Layer.current, mode]
  rw [Limited.seen, current, mirrors.given, mirrors.sent]

/-- A layer whose application has moved mirrors it, unless it ended with a `BodyTooLarge`. -/
theorem mirrors_settle {app : App} {given : List ReceiveMessage} {own sent : List SendMessage}
    (started : Bool) (other : app.result ≠ some (.error .bodyTooLarge)) :
    Mirrors ⟨Layer.settle AppCall.app (limit.handler ctx scope) started ⟨some (total given), app⟩,
      given, own, sent⟩ ⟨app, given, sent⟩ := by
  cases app with
  | done => exact ⟨rfl, nofun, fun _ => rfl, rfl, rfl⟩
  | raise e =>
      have different : e ≠ .bodyTooLarge := by
        rintro rfl
        exact other rfl
      refine ⟨rfl, nofun, fun _ => ?_, rfl, rfl⟩
      exact congrArg Mode.finishing (if_neg different)
  | _ => exact ⟨rfl, fun _ => ⟨_, rfl⟩, fun ended => absurd rfl ended, rfl, rfl⟩

/-- Within the limit the counted application moves as it does on its own. -/
theorem move_of_fits {app : App} {a : Answer} {n : ℕ}
    (fits : n + total (givenBy app a) ≤ limit.maxBytes) :
    limit.move ⟨some n, app⟩ a =
      (app.answer a).map fun app' => ⟨some (n + total (givenBy app a)), app'⟩ := by
  cases app with
  | receive k =>
      cases a with
      | received message =>
          have length : total (givenBy (.receive k) (.received message)) = bytesOf message := rfl
          rw [length] at fits ⊢
          rcases countingReceive_cases limit n message with ⟨counts, _⟩ | ⟨_, exceeds⟩
          · simp only [move, counts]
            rfl
          · exact absurd fits (Nat.not_le_of_lt exceeds)
      | _ => rfl
  | _ => cases a <;> rfl

/-- Within the limit the application is given what it is given on its own. -/
theorem gives_of_fits {call : BodyCall} {a : Answer} {n : ℕ} (running : call.running = true)
    (counting : call.call.received = some n)
    (fits : n + total (givenBy call.call.app a) ≤ limit.maxBytes) :
    limit.gives call a = givenBy call.call.app a := by
  cases app : call.call.app with
  | receive k =>
      cases a with
      | received message =>
          rw [app] at fits
          have length : total (givenBy (.receive k) (.received message)) = bytesOf message := rfl
          rw [length] at fits
          rw [gives_of_counted running counting app]
          rcases countingReceive_cases limit n message with ⟨counts, _⟩ | ⟨_, exceeds⟩
          · rw [counts]
            rfl
          · exact absurd fits (Nat.not_le_of_lt exceeds)
      | _ => exact gives_of_not_received (by rw [app]; rfl)
  | _ =>
      refine gives_of_not_received ?_
      rw [app]
      cases a <;> rfl

/-- The two move together, as long as the stream stays within the limit and the
application does not end with a `BodyTooLarge`. -/
theorem Mirrors.step {s : Limited} {u : Seen} {a : Answer} (mirrors : Mirrors s u)
    (fits : total u.given + total (givenBy u.app a) ≤ limit.maxBytes)
    (other : ∀ v, serve u a = some v → v.app.result ≠ some (.error .bodyTooLarge)) :
    (serve u a = none → limit.step ctx scope s a = none) ∧
      ∀ v, serve u a = some v → ∃ next, limit.step ctx scope s a = some next ∧ Mirrors next v := by
  obtain ⟨app, given, sent⟩ := u
  obtain ⟨layer, given', own, sent'⟩ := s
  obtain ⟨call, goes, ended, rfl, rfl⟩ := mirrors
  dsimp only at call goes ended fits
  cases result : app.result with
  | some result' =>
      -- neither an ended application nor the layer over it has an await left
      have mode := ended (by rw [result]; nofun)
      have stuck : app.answer a = none := by
        cases answered : app.answer a with
        | none => rfl
        | some after => cases (App.result_eq_none_of_answer answered).symm.trans result
      have refused : serve ⟨app, given', sent'⟩ a = none := by rw [serve, stuck, Option.map_none]
      refine ⟨fun _ => ?_, fun v served => by cases refused.symm.trans served⟩
      rw [BodySizeLimitMiddleware.step, Layer.answer, mode]
      simp only [stuck, Option.map_none]
  | none =>
      obtain ⟨started, mode⟩ := goes result
      have running : BodyCall.running layer = true := by rw [BodyCall.running, mode]
      have gives : limit.gives layer a = givenBy app a := by
        have counting : layer.call.received = some (total given') := by rw [call]
        have fits' : total given' + total (givenBy layer.call.app a) ≤ limit.maxBytes := by
          rw [call]
          exact fits
        have same := gives_of_fits running counting fits'
        rw [call] at same
        exact same
      have moves : limit.step ctx scope ⟨layer, given', own, sent'⟩ a =
          (app.answer a).map fun app' =>
            ⟨Layer.settle AppCall.app (limit.handler ctx scope) started
                ⟨some (total (given' ++ givenBy app a)), app'⟩,
              given' ++ givenBy app a, own ++ sentBy app a, sent' ++ sentBy app a⟩ := by
        rw [BodySizeLimitMiddleware.step, Layer.answer, mode]
        simp only [call, move_of_fits fits, Option.map_map, gives, running, if_true, total_append,
          BodyCall.current, Layer.current, mode]
        rfl
      rw [moves]
      refine ⟨fun refused => ?_, fun v served => ?_⟩
      · rw [Option.map_eq_none_iff.mp refused, Option.map_none]
      · obtain ⟨app', answered, rfl⟩ := Option.map_eq_some_iff.mp served
        rw [answered]
        exact ⟨_, rfl, mirrors_settle started (other _ served)⟩

/-- The application does not end with a `BodyTooLarge`. -/
def KeepsOff (u : Seen) : Prop := u.app.result ≠ some (.error .bodyTooLarge)

instance (u : Seen) : Decidable (KeepsOff u) := by
  unfold KeepsOff
  infer_instance

theorem total_streamOf_cons (a : Answer) (as : List Answer) :
    total (streamOf (a :: as)) = total (streamOf [a]) + total (streamOf as) := by
  have split : streamOf (a :: as) = streamOf [a] ++ streamOf as := by
    rw [streamOf, streamOf, streamOf, List.flatMap_singleton, List.flatMap_cons]
  rw [split, total_append]

/-- An application is given what the stream holds, or nothing. -/
theorem total_givenBy_le (app : App) (a : Answer) :
    total (givenBy app a) ≤ total (streamOf [a]) := by
  unfold givenBy
  split
  · exact Nat.le_refl _
  · exact Nat.zero_le _

/-- Within the limit a run behind the middleware is a run without it. -/
theorem exec_seen {s : Limited} {u : Seen} {as : List Answer} (mirrors : Mirrors s u)
    (fits : total u.given + total (streamOf as) ≤ limit.maxBytes)
    (off : EveryState serve KeepsOff u as) :
    (exec (limit.step ctx scope) s as).map Limited.seen = exec serve u as := by
  induction as generalizing s u with
  | nil => exact congrArg some mirrors.seen
  | cons a as ih =>
      rw [total_streamOf_cons] at fits
      have here := total_givenBy_le u.app a
      have together : (serve u a = none → limit.step ctx scope s a = none) ∧
          ∀ v, serve u a = some v → ∃ next, limit.step ctx scope s a = some next ∧
            Mirrors next v :=
        mirrors.step (by omega) fun v served => (off.2 v served).first
      obtain ⟨stuck, moves⟩ := together
      rw [exec_cons, exec_cons]
      cases served : serve u a with
      | none => rw [stuck served, Option.bind_none, Option.bind_none, Option.map_none]
      | some v =>
          obtain ⟨next, taken, after⟩ := moves v served
          rw [taken, Option.bind_some, Option.bind_some]
          refine ih after ?_ (off.2 v served)
          obtain ⟨app', _, rfl⟩ := Option.map_eq_some_iff.mp served
          rw [total_append]
          omega

variable (ctx) in
/-- **The limit caps the body, and is otherwise not there.** Whatever an application
receives, sends and catches, it is given at most `maxBytes` bytes of body. If neither a
declared length nor the stream is above the limit, the application and the client see what
they see without the middleware, for an application that does not itself end with a
`BodyTooLarge`. -/
theorem body_capped_and_transparent (limits : limit.Limits scope) (app : App)
    (as : List Answer) :
    (∀ t, exec (limit.step ctx scope) (limit.start ctx scope app) as = some t →
        total t.given ≤ limit.maxBytes) ∧
      ((∀ declared ∈ contentLength scope, declared ≤ limit.maxBytes) →
        total (streamOf as) ≤ limit.maxBytes → EveryState serve KeepsOff { app } as →
          (exec (limit.step ctx scope) (limit.start ctx scope app) as).map Limited.seen =
            exec serve { app } as) := by
  refine ⟨fun t run => ?_, fun declared fits off => ?_⟩
  · have kept := exec_invariant_always (fun _ _ _ before taken => capped_step before taken) run
      (capped_start limits app)
    exact kept.capped
  · rcases start_cases ctx limits app with ⟨⟨length, told, exceeds⟩, _⟩ | ⟨_, starts⟩
    · exact absurd (declared length told) (by omega)
    · rw [starts]
      have mirrors : Mirrors
          ⟨Layer.settle AppCall.app (limit.handler ctx scope) false ⟨some (total []), app⟩,
            [], [], []⟩
          ⟨app, [], []⟩ := mirrors_settle false off.first
      exact exec_seen mirrors (by simpa [total] using fits) off

/-- A limit of ten bytes. -/
def tenBytes : BodySizeLimitMiddleware := { maxBytes := 10 }

def tenContext : Context := ⟨encode "r0", ⟨fun _ => [], 0⟩⟩

/-- An upload whose length is not declared. -/
def upload : Scope := { method := "POST", path := "/upload" }

/-- An application that reads a chunk and answers with its size. -/
def sizes : App := .receive fun message =>
  match message with
  | .ok (.request body _) => .sending [.start 200 [], .body [UInt8.ofNat body.length] false]
  | .ok .disconnect => .done
  | .error e => .raise e

/-- A chunk of five bytes passes, and the request goes as it goes without the limit. -/
theorem small_upload_passes :
    let fiveBytes : List Answer := [.received (.request [1, 2, 3, 4, 5] false), .sent, .sent]
    (exec (tenBytes.step tenContext upload) (tenBytes.start tenContext upload sizes)
        fiveBytes).map Limited.seen = exec serve { app := sizes } fiveBytes ∧
      ∃ u ∈ exec serve { app := sizes } fiveBytes,
        total u.given = 5 ∧ u.sent = [.start 200 [], .body [5] false] := by
  intro fiveBytes
  have limits : tenBytes.Limits upload := ⟨rfl, List.not_mem_nil⟩
  obtain ⟨_, transparent⟩ := body_capped_and_transparent tenContext limits sizes fiveBytes
  have undeclared : ∀ declared ∈ contentLength upload, declared ≤ (tenBytes.maxBytes : ℤ) := by
    decide
  exact ⟨transparent undeclared (by decide) (by decide +kernel), by decide +kernel⟩

/-- **A `BodyTooLarge` of the application's own is answered 413.** On its own the
application ends with the exception and the client receives nothing of it; behind the
limit the client receives the response of the middleware. -/
theorem own_exception_answered :
    exec serve { app := .raise .bodyTooLarge } [] = some { app := .raise .bodyTooLarge } ∧
      exec serve { app := .raise .bodyTooLarge } [.sent, .sent] = none ∧
        ∃ t ∈ exec (tenBytes.step tenContext upload)
            (tenBytes.start tenContext upload (.raise .bodyTooLarge)) [.sent, .sent],
          total t.given = 0 ∧ t.sent = tenBytes.reject tenContext upload := by
  exact ⟨rfl, rfl, _, rfl, rfl, rfl⟩

/-! ### Bodies that are too large -/

variable (limit ctx scope) in
/-- From its first start on, the client has received the 413 and nothing else. -/
def Answered413 (messages : List SendMessage) : Prop :=
  messages.dropWhile (fun message => ¬ message.isStart) = limit.reject ctx scope

variable (limit) in
/-- The application is about to receive the chunk that exceeds the limit, and has started no
response. -/
def Overflows (s : Limited) (a : Answer) : Prop :=
  s.call.mode = .wrapping false ∧ ∃ received k body moreBody,
    s.call.call = ⟨some received, .receive k⟩ ∧ a = .received (.request body moreBody) ∧
      limit.maxBytes < received + body.length

/-- No `send` is cut off: an await that is cancelled sends nothing. -/
def Uncut (s : Limited) (a : Answer) : Prop :=
  a.isCancelled = true → s.call.current.pending = none

instance (s : Limited) (a : Answer) : Decidable (Uncut s a) :=
  inferInstanceAs (Decidable (a.isCancelled = true → s.call.current.pending = none))

variable (limit ctx scope) in
/-- Where a call stands of which no `send` was cut off. While the application runs, or if it was not
replaced, the client has received what the application sent. -/
inductive Stands (s : Limited) : Prop
  | running (started : Bool) (mode : s.call.mode = .wrapping started)
      (awaits : s.call.call.app.result = none) (sent : s.sent = s.own)
      (starts : started = (s.own.any SendMessage.isStart || s.call.call.app.starts))
  | finished (rest : App) (mode : s.call.mode = .finishing rest) (ended : rest.result ≠ none)
      (sent : s.sent = s.own)
      (kept : s.call.call.app = .raise .bodyTooLarge → s.own.any SendMessage.isStart)
  | replaced (first later : List SendMessage) (whole : first ++ later = limit.reject ctx scope)
      (mode : s.call.mode = .finishing (.sending later)) (sent : s.sent = s.own ++ first)
      (silent : s.own.any SendMessage.isStart = false)
      (raised : s.call.call.app = .raise .bodyTooLarge)

/-- A layer that settles stands somewhere. -/
theorem stands_settle {call : AppCall} {given : List ReceiveMessage} {own sent : List SendMessage}
    {started : Bool} (same : sent = own) (starts : started = own.any SendMessage.isStart) :
    Stands limit ctx scope
      ⟨Layer.settle AppCall.app (limit.handler ctx scope) started call, given, own, sent⟩ := by
  obtain ⟨received, app⟩ := call
  cases app with
  | done => exact .finished .done rfl nofun same nofun
  | raise e =>
      by_cases large : e = .bodyTooLarge
      · subst large
        cases started with
        | true => exact .finished .done rfl nofun same fun _ => starts.symm
        | false =>
            exact .replaced [] (limit.reject ctx scope) rfl rfl
              (same.trans (List.append_nil _).symm) starts.symm rfl
      · refine .finished (.raise e) (congrArg Mode.finishing (if_neg large)) nofun same ?_
        intro raised
        exact absurd (App.raise.inj raised) large
  | _ => exact .running _ rfl rfl same (by rw [← starts]; rfl)

theorem forwarded_of_pending {app after : App} {a : Answer} {message : SendMessage}
    (pending : app.pending = some message) (uncut : a.isCancelled = true → app.pending = none)
    (answered : app.answer a = some after) : Nest.forwarded a = true := by
  cases app with
  | send _ k =>
      cases a with
      | sent => rfl
      | cancelled forwarded => cases uncut rfl
      | received message => cases answered
      | slept fault => cases answered
  | _ => cases pending

/-- A `send` that is not cut off sends what it was waiting to send. -/
theorem sentBy_of_uncut {app after : App} {a : Answer}
    (uncut : a.isCancelled = true → app.pending = none) (answered : app.answer a = some after) :
    sentBy app a = app.pending.toList := by
  unfold sentBy
  cases pending : app.pending with
  | none => rw [Option.toList_none, ite_self]
  | some message => rw [forwarded_of_pending pending uncut answered, if_pos rfl]

theorem any_isStart_append_pending (own : List SendMessage) (app : App) :
    (own ++ app.pending.toList).any SendMessage.isStart =
      (own.any SendMessage.isStart || app.starts) := by
  rw [List.any_append, App.starts]
  cases app.pending with
  | none => rfl
  | some message => simp

/-- A response on its way goes on by its next message. -/
theorem sends_next {messages : List SendMessage} {a : Answer} {after : App}
    (uncut : a.isCancelled = true → (App.sending messages).pending = none)
    (answered : (App.sending messages).answer a = some after) :
    ∃ message rest, messages = message :: rest ∧ sentBy (.sending messages) a = [message] ∧
      after = .sending rest := by
  obtain ⟨message, rest, rfl, ⟨rfl, after⟩ | ⟨forwarded, rfl, _⟩⟩ := App.answer_sending answered
  · exact ⟨message, rest, rfl, rfl, after⟩
  · cases uncut rfl

/-- A step that cuts no `send` off leads from where a call stands to where it stands next. -/
theorem stands_step {s next : Limited} {a : Answer} (uncut : Uncut s a)
    (stands : Stands limit ctx scope s) (counting : ∃ n, s.call.call.received = some n)
    (taken : limit.step ctx scope s a = some next) : Stands limit ctx scope next := by
  cases stands with
  | running started mode _ sent starts =>
      obtain ⟨n, counting⟩ := counting
      obtain ⟨call, moved, rfl⟩ := step_wrapping mode taken
      rw [Uncut, BodyCall.current, Layer.current, mode] at uncut
      have gone : sentBy s.call.call.app a = s.call.call.app.pending.toList := by
        rcases move_cases counting moved with ⟨k, message, receives, rfl, _⟩ | ⟨_, app, answered, _⟩
        · rw [receives]
          rfl
        · exact sentBy_of_uncut uncut answered
      refine stands_settle (by rw [sent]) ?_
      rw [gone, any_isStart_append_pending]
      exact starts
  | finished rest mode ended sent kept =>
      obtain ⟨rest', answered, _⟩ := step_finishing mode taken
      exact absurd (App.result_eq_none_of_answer answered) ended
  | replaced first later whole mode sent silent raised =>
      obtain ⟨rest', answered, rfl⟩ := step_finishing mode taken
      rw [Uncut, BodyCall.current, Layer.current, mode] at uncut
      obtain ⟨message, rest, rfl, gone, rfl⟩ := sends_next uncut answered
      refine .replaced (first ++ [message]) rest ?_ rfl ?_ silent raised
      · rw [List.append_assoc]
        exact whole
      · rw [sent, gone, List.append_assoc]

/-- Every call is counted. -/
theorem counting_step {s next : Limited} {a : Answer}
    (before : s.call.mode ≠ .passing ∧ ∃ n, s.call.call.received = some n)
    (taken : limit.step ctx scope s a = some next) :
    next.call.mode ≠ .passing ∧ ∃ n, next.call.call.received = some n := by
  obtain ⟨passing, n, counting⟩ := before
  cases mode : s.call.mode with
  | passing => exact absurd mode passing
  | finishing rest =>
      obtain ⟨rest', _, rfl⟩ := step_finishing mode taken
      exact ⟨nofun, n, counting⟩
  | wrapping started =>
      obtain ⟨call, moved, rfl⟩ := step_wrapping mode taken
      obtain ⟨wraps, keeps⟩ := settle_spec limit ctx scope started call
      refine ⟨wraps, ?_⟩
      rw [keeps]
      rcases move_cases counting moved with ⟨k, message, _, _, rfl⟩ | ⟨_, app, _, rfl⟩
      · exact ⟨_, rfl⟩
      · exact ⟨n, rfl⟩

/-- Where a run leads that cuts no `send` off. -/
theorem stands_of_exec {s t : Limited} {as : List Answer}
    (every : EveryStep (limit.step ctx scope) Uncut s as) (stands : Stands limit ctx scope s)
    (counting : s.call.mode ≠ .passing ∧ ∃ n, s.call.call.received = some n)
    (run : exec (limit.step ctx scope) s as = some t) : Stands limit ctx scope t := by
  have preserved : ∀ s a next, Uncut s a →
      (Stands limit ctx scope s ∧ s.call.mode ≠ .passing ∧ ∃ n, s.call.call.received = some n) →
        limit.step ctx scope s a = some next →
          Stands limit ctx scope next ∧ next.call.mode ≠ .passing ∧
            ∃ n, next.call.call.received = some n := by
    rintro s a next uncut ⟨before, counted⟩ taken
    exact ⟨stands_step uncut before counted.2 taken, counting_step counted taken⟩
  exact (exec_invariant preserved run every ⟨stands, counting⟩).1

theorem dropWhile_of_silent {messages : List SendMessage}
    (silent : messages.any SendMessage.isStart = false) (later : List SendMessage) :
    (messages ++ later).dropWhile (fun message => ¬ message.isStart) =
      later.dropWhile fun message => ¬ message.isStart := by
  induction messages with
  | nil => rfl
  | cons message rest ih =>
      rw [List.any_cons, Bool.or_eq_false_iff] at silent
      rw [List.cons_append, List.dropWhile_cons_of_pos (by simp [silent.1]), ih silent.2]

theorem answered413_append {messages : List SendMessage}
    (silent : messages.any SendMessage.isStart = false) :
    limit.Answered413 ctx scope (messages ++ limit.reject ctx scope) := by
  rw [Answered413, dropWhile_of_silent silent]
  rfl

/-- What the client received of the application only grows. -/
theorem own_of_step {s next : Limited} {a : Answer} (counting : s.call.mode ≠ .passing)
    (taken : limit.step ctx scope s a = some next) : ∃ more, next.own = s.own ++ more := by
  cases mode : s.call.mode with
  | passing => exact absurd mode counting
  | finishing rest =>
      obtain ⟨_, _, rfl⟩ := step_finishing mode taken
      exact ⟨[], (List.append_nil _).symm⟩
  | wrapping started =>
      obtain ⟨_, _, rfl⟩ := step_wrapping mode taken
      exact ⟨_, rfl⟩

theorem own_of_exec {s t : Limited} {as : List Answer}
    (counting : s.call.mode ≠ .passing ∧ ∃ n, s.call.call.received = some n)
    (run : exec (limit.step ctx scope) s as = some t) : ∃ more, t.own = s.own ++ more := by
  induction as generalizing s with
  | nil =>
      obtain rfl := Option.some.inj run
      exact ⟨[], (List.append_nil _).symm⟩
  | cons a as ih =>
      obtain ⟨next, taken, rest⟩ := exec_cons_eq_some.mp run
      obtain ⟨first, grown⟩ := own_of_step counting.1 taken
      obtain ⟨later, total⟩ := ih (counting_step counting taken) rest
      exact ⟨first ++ later, by rw [total, grown, List.append_assoc]⟩

/-- A call that has taken over stays in charge. -/
theorem finishing_of_exec {s t : Limited} {as : List Answer}
    (finishing : ∃ rest, s.call.mode = .finishing rest)
    (run : exec (limit.step ctx scope) s as = some t) : ∃ rest, t.call.mode = .finishing rest := by
  have stays : ∀ s a next, (∃ rest, s.call.mode = .finishing rest) →
      limit.step ctx scope s a = some next → ∃ rest, next.call.mode = .finishing rest := by
    rintro s a next ⟨rest, mode⟩ taken
    obtain ⟨rest', _, rfl⟩ := step_finishing mode taken
    exact ⟨rest', rfl⟩
  exact exec_invariant_always stays run finishing

/-- A running call has sent what its application sent, and its flag is up if that was a
start. A start whose `send` was cancelled may have raised the flag without being sent. -/
structure Flagged (s : Limited) (started : Bool) : Prop where
  awaits : s.call.call.app.result = none
  sent : s.sent = s.own
  flagged : (s.own.any SendMessage.isStart || s.call.call.app.starts) = true → started = true

theorem flagged_settle {call : AppCall} {given : List ReceiveMessage} {own sent : List SendMessage}
    {started started' : Bool} (same : sent = own)
    (flagged : own.any SendMessage.isStart = true → started = true)
    (wraps : (Layer.settle AppCall.app (limit.handler ctx scope) started call).mode =
      .wrapping started') :
    Flagged ⟨Layer.settle AppCall.app (limit.handler ctx scope) started call, given, own, sent⟩
      started' := by
  obtain ⟨received, app⟩ := call
  cases app with
  | done => cases wraps
  | raise e => cases wraps
  | _ =>
      obtain rfl := Mode.wrapping.inj wraps
      refine ⟨rfl, same, fun starts => ?_⟩
      rw [Bool.or_eq_true] at starts ⊢
      exact starts.imp flagged id

theorem starts_of_sentBy {app : App} {a : Answer}
    (starts : (sentBy app a).any SendMessage.isStart = true) : app.starts = true := by
  unfold sentBy at starts
  split at starts
  · rw [App.starts]
    cases pending : app.pending with
    | none =>
        rw [pending] at starts
        cases starts
    | some message => simpa [pending] using starts
  · cases starts

theorem flagged_step {s next : Limited} {a : Answer}
    (before : ∀ started, s.call.mode = .wrapping started → Flagged s started)
    (charged : s.call.mode ≠ .passing) (taken : limit.step ctx scope s a = some next) :
    ∀ started, next.call.mode = .wrapping started → Flagged next started := by
  intro started' wraps
  cases mode : s.call.mode with
  | passing => exact absurd mode charged
  | finishing rest =>
      obtain ⟨rest', _, rfl⟩ := step_finishing mode taken
      cases wraps
  | wrapping started =>
      obtain ⟨_, sent, flagged⟩ := before started mode
      obtain ⟨call, _, rfl⟩ := step_wrapping mode taken
      refine flagged_settle (by rw [sent]) (fun starts => flagged ?_) wraps
      rw [List.any_append, Bool.or_eq_true] at starts
      rw [Bool.or_eq_true]
      exact starts.imp id starts_of_sentBy

/-- A call whose application is running and has started nothing, whatever was cancelled. -/
theorem stands_of_start (limits : limit.Limits scope) {app : App} {s : Limited}
    {as : List Answer}
    (reached : exec (limit.step ctx scope) (limit.start ctx scope app) as = some s)
    (wrapping : s.call.mode = .wrapping false) :
    Stands limit ctx scope s ∧ ∃ n, s.call.call.received = some n := by
  rcases start_cases ctx limits app with ⟨_, starts⟩ | ⟨_, starts⟩
  · rw [starts] at reached
    obtain ⟨rest, mode⟩ := finishing_of_exec ⟨_, rfl⟩ reached
    cases wrapping.symm.trans mode
  · rw [starts] at reached
    obtain ⟨passing, keeps⟩ := settle_spec limit ctx scope false ⟨some 0, app⟩
    let settled := Layer.settle AppCall.app (limit.handler ctx scope) false ⟨some 0, app⟩
    have counting : settled.mode ≠ .passing ∧ ∃ n, settled.call.received = some n :=
      ⟨passing, 0, by rw [keeps]⟩
    have preserved : ∀ s a next,
        ((s.call.mode ≠ .passing ∧ ∃ n, s.call.call.received = some n) ∧
          ∀ started, s.call.mode = .wrapping started → Flagged s started) →
        limit.step ctx scope s a = some next →
          (next.call.mode ≠ .passing ∧ ∃ n, next.call.call.received = some n) ∧
            ∀ started, next.call.mode = .wrapping started → Flagged next started :=
      fun _ _ _ before taken =>
        ⟨counting_step before.1 taken, flagged_step before.2 before.1.1 taken⟩
    obtain ⟨counted, flagged⟩ := exec_invariant_always preserved reached
      ⟨counting, fun _ wraps => flagged_settle rfl nofun wraps⟩
    obtain ⟨awaits, sent, flagged⟩ := flagged false wrapping
    exact ⟨.running false wrapping awaits sent (Bool.eq_false_iff.mpr (mt flagged nofun)).symm,
      counted.2⟩

/-- **When an oversized body is answered 413.** Let the stream exceed the limit before the
application has started a response, and let the request end with no `send` cut off after that.
The client receives exactly the 413 response if and only if the application sends no start
from then on and ends with the `BodyTooLarge` that its `receive` raised, or sends that very
response itself. -/
theorem oversized_answered_iff (limits : limit.Limits scope) {app : App} {s t : Limited}
    {as bs : List Answer} {a : Answer}
    (reached : exec (limit.step ctx scope) (limit.start ctx scope app) as = some s)
    (exceeds : limit.Overflows s a) (run : exec (limit.step ctx scope) s (a :: bs) = some t)
    (uncut : EveryStep (limit.step ctx scope) Uncut s (a :: bs))
    (ended : t.call.current.result ≠ none) :
    ∃ later, t.own = s.own ++ later ∧
      (limit.Answered413 ctx scope t.sent ↔
        t.call.call.app = .raise .bodyTooLarge ∧ later.any SendMessage.isStart = false ∨
          limit.Answered413 ctx scope later) := by
  obtain ⟨wrapping, _⟩ := exceeds
  have charged : s.call.mode ≠ .passing := by
    rw [wrapping]
    nofun
  obtain ⟨stands, n, counting⟩ := stands_of_start limits reached wrapping
  obtain ⟨later, grown⟩ := own_of_exec ⟨charged, n, counting⟩ run
  refine ⟨later, grown, ?_⟩
  -- nothing has been started when the chunk arrives
  have silent : s.own.any SendMessage.isStart = false := by
    cases stands with
    | running started mode _ _ starts =>
        have flag : started = false := Mode.wrapping.inj (mode.symm.trans wrapping)
        rw [flag] at starts
        exact (Bool.or_eq_false_iff.mp starts.symm).1
    | finished rest mode _ _ _ => cases mode.symm.trans wrapping
    | replaced _ _ _ mode _ _ _ => cases mode.symm.trans wrapping
  cases stands_of_exec uncut stands ⟨charged, n, counting⟩ run with
  | running started mode awaits _ _ =>
      rw [BodyCall.current, Layer.current, mode] at ended
      exact absurd awaits ended
  | finished rest mode _ sent kept =>
      have own : limit.Answered413 ctx scope t.sent ↔ limit.Answered413 ctx scope later := by
        rw [Answered413, sent, grown, dropWhile_of_silent silent]
        rfl
      rw [own]
      refine ⟨.inr, ?_⟩
      rintro (⟨raised, quietly⟩ | answered)
      · have started := kept raised
        rw [grown, List.any_append, silent, quietly] at started
        cases started
      · exact answered
  | replaced first rest whole mode sent silently raised =>
      rw [BodyCall.current, Layer.current, mode] at ended
      cases rest with
      | cons message rest => exact absurd rfl ended
      | nil =>
          rw [List.append_nil] at whole
          rw [grown, List.any_append, silent, Bool.false_or] at silently
          rw [sent, whole, grown]
          refine ⟨fun _ => .inl ⟨raised, silently⟩, fun _ => answered413_append ?_⟩
          rw [List.any_append, silent, silently]
          rfl

/-- A chunk of eleven bytes. -/
def elevenBytes : Answer := .received (.request (List.replicate 11 0) false)

/-- An application that lets the exception through is answered for. -/
theorem large_upload_answered :
    ∃ t ∈ exec (tenBytes.step tenContext upload) (tenBytes.start tenContext upload sizes)
        [elevenBytes, .sent, .sent],
      t.call.current.result ≠ none ∧ tenBytes.Answered413 tenContext upload t.sent := by
  obtain ⟨t, run, raised, own, ended⟩ :
      ∃ t ∈ exec (tenBytes.step tenContext upload) (tenBytes.start tenContext upload sizes)
          [elevenBytes, .sent, .sent],
        t.call.call.app = .raise .bodyTooLarge ∧ t.own = [] ∧ t.call.current.result ≠ none :=
    ⟨_, rfl, rfl, rfl, by decide⟩
  have limits : tenBytes.Limits upload := ⟨rfl, List.not_mem_nil⟩
  have exceeds : tenBytes.Overflows (tenBytes.start tenContext upload sizes) elevenBytes :=
    ⟨rfl, 0, _, _, _, rfl, rfl, by decide⟩
  have reached : exec (tenBytes.step tenContext upload) (tenBytes.start tenContext upload sizes)
      [] = some (tenBytes.start tenContext upload sizes) := rfl
  obtain ⟨later, grown, answered⟩ :=
    oversized_answered_iff limits reached exceeds run (by decide) ended
  obtain rfl : later = [] := (own.symm.trans grown).symm
  exact ⟨t, run, ended, answered.mpr (.inl ⟨raised, rfl⟩)⟩

/-- An application that answers 400 when its body cannot be read. -/
def lenient : App := .receive fun message =>
  match message with
  | .ok _ => .done
  | .error _ => .sending [.start 400 [], .body [] false]

/-- **An oversized body is answered 400.** The application turns the exception into a
response of its own, and the client receives that one. -/
theorem bad_request_instead :
    tenBytes.Limits upload ∧
      tenBytes.Overflows (tenBytes.start tenContext upload lenient) elevenBytes ∧
        ∃ t ∈ exec (tenBytes.step tenContext upload) (tenBytes.start tenContext upload lenient)
            [elevenBytes, .sent, .sent],
          t.call.current.result = some (.ok ()) ∧ t.sent = [.start 400 [], .body [] false] ∧
            ¬ tenBytes.Answered413 tenContext upload t.sent := by
  refine ⟨⟨rfl, List.not_mem_nil⟩, ⟨rfl, 0, _, _, _, rfl, rfl, by decide⟩, _, rfl, rfl, rfl, ?_⟩
  intro answered
  have start := (List.cons.inj answered).1
  cases start

end BodySizeLimitMiddleware

end PyCommon.Middleware
