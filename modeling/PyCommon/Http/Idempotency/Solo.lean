import PyCommon.Http.Idempotency.Steps

/-!
# One request on its own

The labels of a request that nobody disturbs, and where they lead. A request that
arrives while its key is free ends up running the app (`exec_claiming_free`); one
that finds the key taken reads what it holds and is answered accordingly
(`exec_claiming_taken`, `exec_settling_get`). So a request is answered by replaying a
record exactly when the key holds that record under its own fingerprint
(`answeredBy_iff`).
-/

set_option autoImplicit false

namespace PyCommon.Idempotency

open StepSystem

variable {cfg : IdempotencyMiddleware} {sha256 : Bytes → String}

/-! ## Labels -/

/-- Request `id` arrives, reads its body, and has `SET NX` executed and answered. -/
def claiming (id : ℕ) (request : Request) : List Label :=
  [.arrive id request, .resume id none, .redis id, .resume id none]

/-- Request `id` has a command executed and goes on with its reply. -/
def settling (id : ℕ) : List Label := [.redis id, .resume id none]

/-- An app that sends two messages sends them and returns. -/
def answering (id : ℕ) : List Label := [.resume id none, .resume id none, .resume id none]

def orderScope : Scope :=
  { method := "POST", path := "/orders",
    headers := [(encode "Idempotency-Key", encode "k1")] }

/-- An order whose handler answers with the status and an empty body. -/
def order (status : ℤ) : Request :=
  { scope := orderScope, stream := [.request [] false],
    app := .sending [.start status [], .body [] false] }

def orderTicket : Ticket := ⟨orderScope, "k1", []⟩

/-! ## Steps of one request -/

theorem put_put (s : Sys) (id : ℕ) (p q : Proc) : (s.put id p).put id q = s.put id q := by
  unfold Sys.put
  rw [Function.update_idem]

theorem exec_arrive {s : Sys} {id : ℕ} {request : Request} {ls : List Label}
    (vacant : s.procs id = none) :
    exec (step cfg sha256) s (.arrive id request :: ls) =
      exec (step cfg sha256) (s.put id (request.begin cfg)) ls := by
  rw [exec_cons, step_arrive.mpr ⟨vacant, rfl⟩, Option.bind_some]

theorem exec_resume {s : Sys} {id : ℕ} {p q : Proc} {ls : List Label}
    (moved : p.resume cfg sha256 s.now none = some q) :
    exec (step cfg sha256) (s.put id p) (.resume id none :: ls) =
      exec (step cfg sha256) (s.put id q) ls := by
  have stays : (s.put id p).leave id p = s.put id p := by
    rw [Sys.leave, sent_of_resumes (resumes_of_resume moved)]
    rfl
  have taken : step cfg sha256 (s.put id p) (.resume id none) =
      some (((s.put id p).leave id p).put id q) :=
    step_resume.mpr ⟨p, q, put_procs_self .., nofun, moved, rfl⟩
  rw [exec_cons, taken, Option.bind_some, stays, put_put]

theorem exec_redis {s : Sys} {id : ℕ} {p q : Proc} {store : Store} {ls : List Label}
    (moved : p.command cfg sha256 s.now id s.store = some (store, q)) :
    exec (step cfg sha256) (s.put id p) (.redis id :: ls) =
      exec (step cfg sha256) ({ s with store }.put id q) ls := by
  rw [exec_cons, step_redis.mpr ⟨p, q, store, put_procs_self .., moved, rfl⟩, Option.bind_some,
    put_put]
  rfl

/-! ## Claiming a key -/

variable (cfg) in
/-- The middleware keys the request, and reads its body, so that it gets this ticket
and leaves this to receive. -/
structure Request.Keyed (request : Request) (ticket : Ticket) (receiver : Receiver) : Prop where
  way : dispatch cfg request.scope = .ok (.keyed ticket.key)
  scope : ticket.scope = request.scope
  body : bufferBody [] request.stream = some (ticket.body, receiver)

/-- The call of a keyed request in a phase after its body was read. -/
def Request.reach (request : Request) (ticket : Ticket) (receiver : Receiver) (phase : Phase) :
    Proc :=
  { ticket, requestId := request.requestId, app := request.app, receiver, phase }

variable {request : Request} {ticket : Ticket} {receiver : Receiver} {s : Sys} {id : ℕ}
  {ls : List Label}

theorem exec_setting (keyed : request.Keyed cfg ticket receiver) (vacant : s.procs id = none) :
    exec (step cfg sha256) s (claiming id request ++ ls) =
      exec (step cfg sha256) (s.put id (request.reach ticket receiver .setting))
        (.redis id :: .resume id none :: ls) := by
  refine (exec_arrive vacant).trans (exec_resume ?_)
  obtain ⟨scope, key, body⟩ := ticket
  obtain rfl : scope = request.scope := keyed.scope
  rw [Request.begin, keyed.way]
  simp only [Proc.resume, keyed.body, Option.map_some]
  rfl

variable (cfg sha256) in
/-- The store after request `id` has placed its marker. -/
def Sys.reserve (s : Sys) (id : ℕ) (ticket : Ticket) : Store :=
  Keyspace.write s.store (ticket.redisKey sha256 cfg)
    ⟨.inFlight (ticket.fingerprint sha256), id⟩ (s.now + cfg.ttlSeconds * 1000)

/-- A request that finds its key free places its marker and runs the app. -/
theorem exec_claiming_free (keyed : request.Keyed cfg ticket receiver)
    (vacant : s.procs id = none) (free : s.store (ticket.redisKey sha256 cfg) = none) :
    exec (step cfg sha256) s (claiming id request ++ ls) =
      exec (step cfg sha256)
        ({ s with store := s.reserve cfg sha256 id ticket }.put id
          (request.reach ticket receiver .running)) ls := by
  have won : (request.reach ticket receiver .setting).command cfg sha256 s.now id s.store =
      some (s.reserve cfg sha256 id ticket, request.reach ticket receiver (.setReply true)) := by
    simp only [Proc.command, Request.reach, Proc.redisKey, free]
    rfl
  rw [exec_setting keyed vacant, exec_redis won]
  exact exec_resume rfl

/-- A request that finds its key taken goes on to read it. -/
theorem exec_claiming_taken {slot : Keyspace.Slot Held} (keyed : request.Keyed cfg ticket receiver)
    (vacant : s.procs id = none) (taken : s.store (ticket.redisKey sha256 cfg) = some slot) :
    exec (step cfg sha256) s (claiming id request ++ ls) =
      exec (step cfg sha256) (s.put id (request.reach ticket receiver .getting)) ls := by
  have lost : (request.reach ticket receiver .setting).command cfg sha256 s.now id s.store =
      some (s.store, request.reach ticket receiver (.setReply false)) := by
    simp only [Proc.command, Request.reach, Proc.redisKey, taken]
  rw [exec_setting keyed vacant, exec_redis lost]
  exact exec_resume rfl

/-- A `GET` that finds a value has the call answered from it. -/
theorem exec_settling_get {p : Proc} {slot : Keyspace.Slot Held} (getting : p.phase = .getting)
    (taken : s.store (p.redisKey cfg sha256) = some slot) :
    exec (step cfg sha256) (s.put id p) (settling id ++ ls) =
      exec (step cfg sha256)
        (s.put id { p with phase := .ended (p.handleExisting sha256 s.now slot.value) }) ls := by
  have read : p.command cfg sha256 s.now id s.store =
      some (s.store, { p with phase := .getReply (some slot.value) }) := by
    simp only [Proc.command, getting, taken, Option.map_some]
  rw [settling, List.cons_append, exec_redis read]
  exact exec_resume rfl

/-! ## Being answered from a record -/

/-- A call is answered by replay exactly when it read a done record under its own
fingerprint. -/
theorem handleExisting_eq_replayed {now : ℕ} {p : Proc} {held : Held} {record : DoneRecord}
    {writer : ℕ} :
    p.handleExisting sha256 now held = .replayed record writer ↔
      held = ⟨.done record, writer⟩ ∧ record.fingerprint = p.ticket.fingerprint sha256 := by
  obtain ⟨value, writer'⟩ := held
  unfold Proc.handleExisting
  cases value with
  | inFlight fingerprint => split <;> simp
  | done record' =>
      split
      · rename_i other
        simp only [reduceCtorEq, Held.mk.injEq, Stored.done.injEq, false_iff]
        rintro ⟨⟨rfl, _⟩, same⟩
        exact other same
      · rename_i same
        simp only [Ending.replayed.injEq, Held.mk.injEq, Stored.done.injEq]
        constructor
        · rintro ⟨rfl, rfl⟩
          exact ⟨⟨rfl, rfl⟩, not_not.mp same⟩
        · exact And.left

variable (cfg sha256) in
/-- Request `id`, arriving now, is answered by replaying the record of `writer`. -/
def AnsweredBy (s : Sys) (id : ℕ) (request : Request) (record : DoneRecord) (writer : ℕ) : Prop :=
  ∃ next ∈ exec (step cfg sha256) s (claiming id request ++ settling id),
    ∃ p ∈ next.procs id, p.phase = .ended (.replayed record writer)

/-- **Who is answered from a record.** -/
theorem answeredBy_iff (keyed : request.Keyed cfg ticket receiver) (vacant : s.procs id = none)
    {record : DoneRecord} {writer : ℕ} :
    AnsweredBy cfg sha256 s id request record writer ↔
      (∃ slot ∈ s.store (ticket.redisKey sha256 cfg), slot.value = ⟨.done record, writer⟩) ∧
        record.fingerprint = ticket.fingerprint sha256 := by
  unfold AnsweredBy
  cases held : s.store (ticket.redisKey sha256 cfg) with
  | none =>
      -- the request runs the app, and no command of it is waiting
      rw [exec_claiming_free keyed vacant held, settling, exec_cons]
      simp [step, put_procs_self, Proc.command, Request.reach]
  | some slot =>
      have getting : (request.reach ticket receiver .getting).phase = .getting := rfl
      have there : s.store ((request.reach ticket receiver .getting).redisKey cfg sha256) =
          some slot := held
      have answered : exec (step cfg sha256) (s.put id (request.reach ticket receiver .getting))
          (settling id ++ []) = _ := exec_settling_get getting there
      rw [List.append_nil, exec_nil] at answered
      rw [exec_claiming_taken keyed vacant held, answered]
      simp only [Option.mem_some_iff, exists_eq_left', put_procs_self, Phase.ended.injEq,
        handleExisting_eq_replayed, Request.reach]

end PyCommon.Idempotency
