import PyCommon.Http.Idempotency.Replay
import PyCommon.Http.Middleware.Layers

/-!
# The first response

A request that won its reservation runs the app with `send_wrapper` for `send`. The
wrapper records a message before it forwards it, and recording decodes the headers of
a start. So what happens to the record happens to the live response: a message whose
headers are not UTF-8 is not forwarded, and the app sees its own `send` raise
(`forward_spec`).

A run is watched by two history variables, the messages that the wrapper of each
request passed on and the exceptions that it raised itself (`watch`). Along every run
each client receives what its app sent, in that order, and no wrapper raises, exactly
when every start that is sent has headers in UTF-8 (`first_response_transparent_iff`).
The headers of an ASGI response are byte strings in which any byte may stand
(`latin1_response_not_forwarded`).
-/

set_option autoImplicit false

namespace PyCommon.Idempotency

open StepSystem

variable (cfg : IdempotencyMiddleware) (sha256 : Bytes → String)

/-! ## The wrapper -/

/-- The message that the app is about to hand to `send_wrapper`. -/
def Proc.handing (p : Proc) : Option SendMessage :=
  match p.phase with
  | .running => p.app.pending
  | _ => none

/-- What `send_wrapper` does with a message: it passes the message on, or raises. -/
def Proc.forward (p : Proc) (message : SendMessage) : Except PyExc SendMessage :=
  (p.recorder.record cfg.maxStoredBytes message).2.map fun _ => message

/-- The system with what the wrapper of each request passed on and what it raised. -/
structure Watched where
  sys : Sys := {}
  received : ℕ → List SendMessage := fun _ => []
  raised : ℕ → List PyExc := fun _ => []

/-- The wrapper of a request has dealt with the message that it was called with, if it
was called. -/
def Watched.note (w : Watched) (id : ℕ) : Option (Except PyExc SendMessage) → Watched
  | none => w
  | some (.ok message) =>
      { w with received := Function.update w.received id (w.received id ++ [message]) }
  | some (.error e) => { w with raised := Function.update w.raised id (w.raised id ++ [e]) }

/-- What the wrapper of a request does when the request is resumed. -/
def Sys.wrapped (s : Sys) (id : ℕ) : Option (Except PyExc SendMessage) :=
  (s.procs id).bind fun p => p.handing.map (p.forward cfg)

/-- The request that a label resumes. -/
def Label.resumed : Label → Option ℕ
  | .resume id _ => some id
  | _ => none

/-- A step, and what a wrapper that is called in it does. -/
def watch (w : Watched) (l : Label) : Option Watched :=
  (step cfg sha256 w.sys l).map fun sys =>
    match l.resumed with
    | some id => { w.note id (w.sys.wrapped cfg id) with sys }
    | none => { w with sys }

/-- What the app of a request has handed to `send_wrapper`. -/
def Sys.sent (s : Sys) (id : ℕ) : List SendMessage :=
  match s.procs id with
  | some p => p.handed
  | none => []

/-- Every client has received what its app sent, and no wrapper has raised. -/
def Transparent (w : Watched) : Prop := ∀ id, w.received id = w.sys.sent id ∧ w.raised id = []

/-! ## Encoded headers -/

def headersOf : SendMessage → List (Bytes × Bytes)
  | .start _ headers => headers
  | _ => []

/-- Every header name and value of a start is valid UTF-8. -/
def WellEncoded (message : SendMessage) : Prop :=
  ∀ pair ∈ headersOf message, IsUtf8 pair.1 ∧ IsUtf8 pair.2

/-- No message is handed over in this step, or one that is well encoded. -/
def HandsWellEncoded (w : Watched) (l : Label) : Prop :=
  ∀ id ∈ l.resumed, ∀ p ∈ w.sys.procs id, ∀ message ∈ p.handing, WellEncoded message

theorem isOk_decode_iff (raw : Bytes) : (decode raw).isOk = true ↔ IsUtf8 raw := by
  rw [IsUtf8]
  cases decode raw with
  | ok text => exact ⟨fun _ => ⟨text, rfl⟩, fun _ => rfl⟩
  | error e =>
      constructor
      · intro ok
        cases ok
      · rintro ⟨text, decoded⟩
        cases decoded

instance (raw : Bytes) : Decidable (IsUtf8 raw) := decidable_of_iff _ (isOk_decode_iff raw)

instance (message : SendMessage) : Decidable (WellEncoded message) := by
  unfold WellEncoded
  infer_instance

instance (w : Watched) (l : Label) : Decidable (HandsWellEncoded w l) := by
  unfold HandsWellEncoded
  infer_instance

variable {cfg sha256}

/-- A message is passed on exactly when its headers can be decoded. -/
theorem forward_eq_ok_iff {p : Proc} {message : SendMessage} :
    p.forward cfg message = .ok message ↔ WellEncoded message := by
  cases message with
  | start status raw =>
      rw [WellEncoded, headersOf, ← decodeHeaders_isOk_iff, Proc.forward, Recorder.record]
      cases decodeHeaders raw with
      | ok headers => exact ⟨fun _ => ⟨headers, rfl⟩, fun _ => rfl⟩
      | error e =>
          constructor
          · intro forwarded
            cases forwarded
          · rintro ⟨headers, decoded⟩
            cases decoded
  | body chunk moreBody =>
      refine ⟨fun _ pair member => absurd member List.not_mem_nil, fun _ => ?_⟩
      rw [Proc.forward, Recorder.record]
      split
      · rfl
      · rfl
  | other type => exact ⟨fun _ pair member => absurd member List.not_mem_nil, fun _ => rfl⟩

theorem forward_of_ok {p : Proc} {message passed : SendMessage}
    (forwarded : p.forward cfg message = .ok passed) : passed = message := by
  rw [Proc.forward] at forwarded
  cases recorded : (p.recorder.record cfg.maxStoredBytes message).2 with
  | error e =>
      rw [recorded] at forwarded
      cases forwarded
  | ok value =>
      rw [recorded] at forwarded
      exact (Except.ok.inj forwarded).symm

/-- The app's `send` gives what the server's gave for a message that was passed on, and
raises what the wrapper raised otherwise. -/
theorem forward_spec {now : ℕ} {p q : Proc} {fault : Option PyExc} {message : SendMessage}
    {k : Except PyExc Unit → App} (running : p.phase = .running) (sends : p.app = .send message k)
    (taken : p.resume cfg sha256 now fault = some q) :
    q.handed = p.handed ++ [message] ∧
      q.app = match p.forward cfg message with
        | .ok _ => k (outcome fault)
        | .error e => k (.error e) := by
  simp only [Proc.resume, running, sends, App.result, Proc.await, if_true, Option.some.injEq]
    at taken
  subst taken
  simp only [Proc.sendRecorded, Proc.forward]
  rcases p.recorder.record cfg.maxStoredBytes message with ⟨recorder, recorded⟩
  cases recorded with
  | error e => exact ⟨rfl, rfl⟩
  | ok value => exact ⟨rfl, rfl⟩

/-! ## One step -/

theorem handed_of_await {recorded : Bool} {fault : Option PyExc} {p q : Proc}
    (taken : p.await cfg recorded fault = some q) :
    q.handed = p.handed ++ if recorded then p.app.pending.toList else [] := by
  unfold Proc.await at taken
  cases app : p.app with
  | done => rw [app] at taken; cases taken
  | raise e => rw [app] at taken; cases taken
  | receive k =>
      rw [app] at taken
      have same : q.handed = p.handed := by
        cases fault with
        | some e =>
            obtain rfl := Option.some.inj taken
            rfl
        | none =>
            obtain ⟨_, _, rfl⟩ := Option.map_eq_some_iff.mp taken
            rfl
      rw [same]
      cases recorded <;> exact (List.append_nil _).symm
  | sleep k =>
      rw [app] at taken
      obtain rfl := Option.some.inj taken
      cases recorded <;> exact (List.append_nil _).symm
  | send message k =>
      rw [app] at taken
      cases recorded with
      | true =>
          obtain rfl := Option.some.inj taken
          unfold Proc.sendRecorded
          split <;> rfl
      | false =>
          obtain rfl := Option.some.inj taken
          exact (List.append_nil _).symm

theorem pending_eq_none_of_result {app : App} {result : Except PyExc Unit}
    (ended : app.result = some result) : app.pending = none := by
  cases app with
  | done => rfl
  | raise e => rfl
  | _ => cases ended

theorem handing_of_ne_running {p : Proc} (elsewhere : p.phase ≠ .running) : p.handing = none := by
  unfold Proc.handing
  split
  · rename_i here
    exact absurd here elsewhere
  · rfl

theorem handing_of_running {p : Proc} (here : p.phase = .running) : p.handing = p.app.pending := by
  rw [Proc.handing, here]

/-- A call hands over what its app is about to send. -/
theorem handed_of_resumes {now : ℕ} {fault : Option PyExc} {p q : Proc}
    (moves : p.Resumes cfg sha256 now fault q) : q.handed = p.handed ++ p.handing.toList := by
  cases moves with
  | awaited here taken =>
      rw [handed_of_await taken, handing_of_running here]
      rfl
  | unrecorded here taken =>
      rw [handed_of_await taken, handing_of_ne_running (by rw [here]; nofun)]
      rfl
  | appEnded here atEnd =>
      rw [handing_of_running here, pending_eq_none_of_result atEnd]
      exact (List.append_nil _).symm
  | claimFailed here =>
      rw [handing_of_ne_running (fun running => by rw [running] at here; cases here)]
      exact (List.append_nil _).symm
  | _ here =>
      rw [handing_of_ne_running (by rw [here]; nofun)]
      exact (List.append_nil _).symm

theorem begin_handed (request : Request) : (request.begin cfg).handed = [] := by
  unfold Request.begin
  cases dispatch cfg request.scope with
  | error e => rfl
  | ok way => cases way <;> rfl

theorem sent_put (s : Sys) (id : ℕ) (p : Proc) :
    (s.put id p).sent = Function.update s.sent id p.handed := by
  funext other
  by_cases same : other = id
  · rw [same, Sys.sent, put_procs_self, Function.update_self]
  · rw [Sys.sent, put_procs_of_ne same, Function.update_of_ne same]
    rfl

theorem sent_leave (s : Sys) (id : ℕ) (p : Proc) : (s.leave id p).sent = s.sent := by
  funext other
  rw [Sys.sent, Sys.sent, leave_procs]

theorem sent_of_there {s : Sys} {id : ℕ} {p : Proc} (there : s.procs id = some p) :
    s.sent id = p.handed := by
  rw [Sys.sent, there]

/-- A resumed request adds the message that it hands over to what it sent. -/
theorem sent_of_resumed {s next : Sys} {l : Label} {id : ℕ} (resumed : l.resumed = some id)
    (taken : step cfg sha256 s l = some next) :
    ∃ p, s.procs id = some p ∧
      next.sent = Function.update s.sent id (s.sent id ++ p.handing.toList) := by
  cases l with
  | resume other fault =>
      obtain rfl := Option.some.inj resumed
      obtain ⟨p, q, there, _, moved, rfl⟩ := step_resume.mp taken
      refine ⟨p, there, ?_⟩
      rw [sent_put, sent_leave, sent_of_there there, handed_of_resumes (resumes_of_resume moved)]
  | _ => cases resumed

/-- Nothing is sent in another step. -/
theorem sent_of_step {s next : Sys} {l : Label} (other : l.resumed = none)
    (taken : step cfg sha256 s l = some next) : next.sent = s.sent := by
  cases l with
  | arrive id request =>
      obtain ⟨vacant, rfl⟩ := step_arrive.mp taken
      have silent : s.sent id = [] := by rw [Sys.sent, vacant]
      rw [sent_put, begin_handed, ← silent, Function.update_eq_self]
  | elapse ms =>
      obtain rfl := Option.some.inj taken
      rfl
  | timeout id =>
      obtain ⟨p, there, _, rfl⟩ := step_timeout.mp taken
      rw [sent_put]
      exact (congrArg _ (sent_of_there there).symm).trans (Function.update_eq_self ..)
  | resume id fault => cases other
  | redis id =>
      obtain ⟨p, q, store, there, moved, rfl⟩ := step_redis.mp taken
      obtain ⟨phase, _, rfl⟩ := executes_of_command moved
      have same : ({ s.put id { p with phase } with store } : Sys).sent =
          (s.put id { p with phase }).sent := rfl
      rw [same, sent_put]
      exact (congrArg _ (sent_of_there there).symm).trans (Function.update_eq_self ..)
  | late id =>
      obtain ⟨_, _, _, _, _, rfl⟩ := step_late.mp taken
      rfl

/-! ## Runs -/

theorem note_ok (w : Watched) (id : ℕ) (message : SendMessage) :
    w.note id (some (.ok message)) =
      { w with received := Function.update w.received id (w.received id ++ [message]) } := rfl

theorem raised_note_error (w : Watched) (id : ℕ) (e : PyExc) :
    (w.note id (some (.error e))).raised id = w.raised id ++ [e] := Function.update_self ..

/-- What a watched step does to the two histories. -/
theorem watch_cases {w next : Watched} {l : Label} (taken : watch cfg sha256 w l = some next) :
    (∃ id p, l.resumed = some id ∧ w.sys.procs id = some p ∧
        next.sys.sent = Function.update w.sys.sent id (w.sys.sent id ++ p.handing.toList) ∧
        next.received = (w.note id (p.handing.map (p.forward cfg))).received ∧
        next.raised = (w.note id (p.handing.map (p.forward cfg))).raised) ∨
      l.resumed = none ∧ next.sys.sent = w.sys.sent ∧ next.received = w.received ∧
        next.raised = w.raised := by
  obtain ⟨sys, stepped, rfl⟩ := Option.map_eq_some_iff.mp taken
  cases resumed : l.resumed with
  | some id =>
      obtain ⟨p, there, sent⟩ := sent_of_resumed resumed stepped
      refine .inl ⟨id, p, rfl, there, sent, ?_, ?_⟩
      all_goals simp only [Sys.wrapped, there, Option.bind_some]
  | none => exact .inr ⟨rfl, sent_of_step resumed stepped, rfl, rfl⟩

/-- A step that hands over nothing ill encoded keeps every client in step with its app. -/
theorem transparent_step {w next : Watched} {l : Label} (encoded : HandsWellEncoded w l)
    (before : Transparent w) (taken : watch cfg sha256 w l = some next) : Transparent next := by
  have received : w.received = w.sys.sent := funext fun id => (before id).1
  have silent : w.raised = fun _ => [] := funext fun id => (before id).2
  suffices next.received = next.sys.sent ∧ next.raised = w.raised by
    intro id
    rw [this.1, this.2, silent]
    exact ⟨rfl, rfl⟩
  rcases watch_cases taken with
    ⟨id, p, resumed, there, sent, kept, raised⟩ | ⟨_, sent, kept, raised⟩
  · rw [sent, kept, raised]
    cases handing : p.handing with
    | none =>
        rw [Option.toList_none, List.append_nil, Function.update_eq_self]
        exact ⟨received, rfl⟩
    | some message =>
        have passed : p.forward cfg message = .ok message :=
          forward_eq_ok_iff.mpr (encoded id resumed p there message handing)
        rw [Option.map_some, passed, note_ok, ← received]
        exact ⟨rfl, rfl⟩
  · rw [sent, kept, raised]
    exact ⟨received, rfl⟩

/-- A start with a header that is not UTF-8 makes the wrapper raise. -/
theorem not_transparent_of_step {w next : Watched} {l : Label}
    (illEncoded : ¬ HandsWellEncoded w l) (taken : watch cfg sha256 w l = some next) :
    ¬ Transparent next := by
  intro after
  simp only [HandsWellEncoded, not_forall] at illEncoded
  obtain ⟨id, resumed, p, there, message, handing, notEncoded⟩ := illEncoded
  rcases watch_cases taken with ⟨id', p', also, own, _, _, raised⟩ | ⟨other, _⟩
  · obtain rfl := Option.some.inj (also.symm.trans resumed)
    obtain rfl := Option.some.inj (own.symm.trans there)
    have handed : p'.handing = some message := handing
    have silent := (after id').2
    rw [raised, handed, Option.map_some] at silent
    cases forwarded : p'.forward cfg message with
    | ok passed =>
        obtain rfl := forward_of_ok forwarded
        exact notEncoded (forward_eq_ok_iff.mp forwarded)
    | error e =>
        rw [forwarded, raised_note_error] at silent
        exact List.append_ne_nil_of_right_ne_nil _ (List.cons_ne_nil _ _) silent
  · cases other.symm.trans resumed

/-- **When the first response is transparent.** Along every run, of any number of
requests with any apps, each client has received exactly what its app sent through
`send_wrapper`, in that order, and no wrapper has raised, if and only if every message
handed to a wrapper has its headers in valid UTF-8. -/
theorem first_response_transparent_iff {s : Sys} {t : Watched} {ls : List Label}
    (fresh : ∀ id, s.procs id = none) (run : exec (watch cfg sha256) { sys := s } ls = some t) :
    EveryState (watch cfg sha256) Transparent { sys := s } ls ↔
      EveryStep (watch cfg sha256) HandsWellEncoded { sys := s } ls := by
  have free : EveryStep (watch cfg sha256) (fun _ _ => True) { sys := s } ls :=
    everyStep_of_forall_mem (fun _ _ _ => trivial) _
  refine everyState_iff_everyStep (fun _ => id) ?_ ?_ run free ?_
  · intro w l next _ encoded before taken
    exact transparent_step encoded before taken
  · intro w l next _ illEncoded _ taken
    exact not_transparent_of_step illEncoded taken
  · intro id
    refine ⟨?_, rfl⟩
    rw [Sys.sent, fresh]

/-- The response to an order with two cookies reaches the client. -/
theorem cookies_reach_client :
    ∃ t ∈ exec (watch {} decodeLatin1) {} (claiming 0 datedOrder ++ answering 0),
      EveryState (watch {} decodeLatin1) Transparent {} (claiming 0 datedOrder ++ answering 0) ∧
        (t.received 0).length = 2 := by
  obtain ⟨t, run, length⟩ :
      ∃ t ∈ exec (watch {} decodeLatin1) {} (claiming 0 datedOrder ++ answering 0),
        (t.received 0).length = 2 := by
    decide +kernel
  have encoded : EveryStep (watch {} decodeLatin1) HandsWellEncoded {}
      (claiming 0 datedOrder ++ answering 0) := by
    decide +kernel
  exact ⟨t, run, (first_response_transparent_iff (fun _ => rfl) run).mpr encoded, length⟩

/-- An order whose handler answers with a header in latin-1. -/
def namedOrder : Request :=
  { order 201 with
    app := .sending [.start 201 [(encode "x-name", [233])], .body [111, 107] false] }

/-- **A latin-1 header costs the client the response.** The order has been handled and
its start is handed over; the client receives nothing, and the handler fails with the
exception of the wrapper. -/
theorem latin1_response_not_forwarded :
    ∃ t ∈ exec (watch {} decodeLatin1) {} (claiming 0 namedOrder ++ [.resume 0 none]),
      ¬ Transparent t ∧ t.sys.sent 0 = [.start 201 [(encode "x-name", [233])]] ∧
        t.received 0 = [] ∧ t.raised 0 = [.unicodeDecodeError] ∧
          ∃ p ∈ t.sys.procs 0, p.app.result = some (.error .unicodeDecodeError) := by
  obtain ⟨t, run, sent, received, raised, failed⟩ :
      ∃ t ∈ exec (watch {} decodeLatin1) {} (claiming 0 namedOrder ++ [.resume 0 none]),
        t.sys.sent 0 = [.start 201 [(encode "x-name", [233])]] ∧ t.received 0 = [] ∧
          t.raised 0 = [.unicodeDecodeError] ∧
            ∃ p ∈ t.sys.procs 0, p.app.result = some (.error .unicodeDecodeError) := by
    decide +kernel
  refine ⟨t, run, ?_, sent, received, raised, failed⟩
  intro transparent
  rw [(transparent 0).2] at raised
  cases raised

end PyCommon.Idempotency
