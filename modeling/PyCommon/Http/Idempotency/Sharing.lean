import PyCommon.Http.Idempotency.Records

/-!
# Which requests share a record

Two requests that the middleware takes for one share a Redis key and a fingerprint.
The law it is meant to obey is that they are then the same request, and that requests
of different scope never share a key (`Distinguished`). Both digests are taken of
texts joined with an unescaped `|`, so for two given requests the law holds exactly
when `|` cannot have been counted to another part (`distinguished_iff`), and there are
requests for which it can (`piped_path_shares_record`).
-/

set_option autoImplicit false

namespace PyCommon.Idempotency

open StepSystem

variable {cfg : IdempotencyMiddleware} {sha256 : Bytes → String}

variable (cfg sha256) in
/-- In every run, if the request with ticket `u` is answered by replaying the record
that the request with ticket `t` stored, then they are the same request; and if they
differ in caller, method, path or key, then their Redis keys differ. -/
def Distinguished (t u : Ticket) : Prop :=
  (∀ ls s first later p q record, exec (step cfg sha256) {} ls = some s →
      s.procs first = some p → s.procs later = some q → p.ticket = t → q.ticket = u →
      q.phase = .ended (.replayed record first) → SameRequest t u) ∧
    (¬ SameScope t u → t.redisKey sha256 cfg ≠ u.redisKey sha256 cfg)

/-- Where the joined texts of two requests coincide, `|` occurs equally often in
corresponding parts. -/
structure Unambiguous (t u : Ticket) : Prop where
  scope : t.keyText = u.keyText → bars (caller t.scope) = bars (caller u.scope) ∧
    bars t.scope.method = bars u.scope.method ∧ bars t.scope.path = bars u.scope.path
  query : t.keyText = u.keyText → t.fingerprintText = u.fingerprintText →
    t.scope.queryString.count 124 = u.scope.queryString.count 124

theorem Unambiguous.sameScope {t u : Ticket} (clear : Unambiguous t u)
    (same : t.keyText = u.keyText) : SameScope t u :=
  have counts := clear.scope same
  sameScope_of_keyText same counts.1 counts.2.1 counts.2.2

theorem Unambiguous.sameRequest {t u : Ticket} (clear : Unambiguous t u)
    (key : t.keyText = u.keyText) (fingerprint : t.fingerprintText = u.fingerprintText) :
    SameRequest t u := by
  have scope := clear.sameScope key
  obtain ⟨query, body⟩ := query_body_of_fingerprintText fingerprint scope.method scope.path
    (clear.query key fingerprint)
  exact ⟨scope, query, body⟩

/-! ## A request that stores, and one that follows -/

/-- A request with this ticket whose handler sends no more than a status line. -/
def briefRequest (ticket : Ticket) : Request :=
  { scope := ticket.scope, stream := [.request ticket.body false],
    app := .sending [.start 200 []] }

theorem briefRequest_keyed {ticket : Ticket}
    (handled : dispatch cfg ticket.scope = .ok (.keyed ticket.key)) :
    (briefRequest ticket).Keyed cfg ticket ⟨some ticket.body, []⟩ where
  way := handled
  scope := rfl
  body := by simp [briefRequest, bufferBody]

/-- The record of that response. -/
def briefRecord (sha256 : Bytes → String) (ticket : Ticket) : DoneRecord :=
  ⟨ticket.fingerprint sha256, 200, [], ""⟩

/-- The request runs, and its response is recorded. -/
def storing (id : ℕ) (ticket : Ticket) : List Label :=
  claiming id (briefRequest ticket) ++ ([.resume id none, .resume id none] ++ settling id)

/-- The call that stored it, at its end. -/
def briefCall (ticket : Ticket) : Proc :=
  { (briefRequest ticket).reach ticket ⟨some ticket.body, []⟩ (.ended .returned) with
    app := .done, recorder := { status := 200 }, handed := [.start 200 []], started := true }

variable (cfg sha256) in
/-- The store after it. -/
def Sys.recorded (s : Sys) (id : ℕ) (ticket : Ticket) : Store :=
  Keyspace.write (s.reserve cfg sha256 id ticket) (ticket.redisKey sha256 cfg)
    ⟨.done (briefRecord sha256 ticket), id⟩ (s.now + cfg.ttlSeconds * 1000)

/-- Under a free key the response is recorded. -/
theorem exec_storing {ticket : Ticket} {s : Sys} {id : ℕ}
    (handled : dispatch cfg ticket.scope = .ok (.keyed ticket.key))
    (vacant : s.procs id = none) (free : s.store (ticket.redisKey sha256 cfg) = none)
    (ls : List Label) :
    exec (step cfg sha256) s (storing id ticket ++ ls) =
      exec (step cfg sha256)
        ({ s with store := s.recorded cfg sha256 id ticket }.put id (briefCall ticket)) ls := by
  let reserved : Sys := { s with store := s.reserve cfg sha256 id ticket }
  let running := (briefRequest ticket).reach ticket ⟨some ticket.body, []⟩ .running
  let sent : Proc := { briefCall ticket with phase := .running }
  let returned : Proc := { briefCall ticket with phase := .storing (briefRecord sha256 ticket) }
  let written : Proc := { briefCall ticket with phase := .storeReply }
  have send : running.resume cfg sha256 reserved.now none = some sent := rfl
  have atEnd : sent.resume cfg sha256 reserved.now none = some returned := rfl
  have record : returned.command cfg sha256 reserved.now id reserved.store =
      some (s.recorded cfg sha256 id ticket, written) := rfl
  rw [storing, List.append_assoc, exec_claiming_free (briefRequest_keyed handled) vacant free]
  change exec (step cfg sha256) (reserved.put id running)
    (.resume id none :: .resume id none :: .redis id :: .resume id none :: ls) = _
  rw [exec_resume send, exec_resume atEnd, exec_redis record]
  exact exec_resume rfl

/-- A first request is recorded, and a second one arrives. -/
def storeThenFollow (t u : Ticket) : List Label :=
  storing 0 t ++ (claiming 1 (briefRequest u) ++ (settling 1 ++ []))

/-- The second of two requests that share key and fingerprint is answered from the
record of the first. -/
theorem exec_storeThenFollow {t u : Ticket}
    (first : dispatch cfg t.scope = .ok (.keyed t.key))
    (later : dispatch cfg u.scope = .ok (.keyed u.key))
    (key : t.redisKey sha256 cfg = u.redisKey sha256 cfg)
    (fingerprint : t.fingerprint sha256 = u.fingerprint sha256) :
    ∃ s p q record, exec (step cfg sha256) {} (storeThenFollow t u) = some s ∧
      s.procs 0 = some p ∧ s.procs 1 = some q ∧ p.ticket = t ∧ q.ticket = u ∧
      q.phase = .ended (.replayed record 0) := by
  let stored : Sys := { store := ({} : Sys).recorded cfg sha256 0 t }
  let s := stored.put 0 (briefCall t)
  let reading := (briefRequest u).reach u ⟨some u.body, []⟩ .getting
  have vacant : s.procs 1 = none := put_procs_of_ne (by decide)
  have held : s.store (u.redisKey sha256 cfg) =
      some ⟨⟨.done (briefRecord sha256 t), 0⟩, 0 + cfg.ttlSeconds * 1000⟩ := by
    rw [← key]
    exact Keyspace.write_self ..
  have answer : reading.handleExisting sha256 s.now ⟨.done (briefRecord sha256 t), 0⟩ =
      .replayed (briefRecord sha256 t) 0 :=
    handleExisting_eq_replayed.mpr ⟨rfl, fingerprint⟩
  have answered : exec (step cfg sha256) (s.put 1 reading) (settling 1 ++ []) = _ :=
    exec_settling_get rfl held
  rw [answer] at answered
  refine ⟨_, briefCall t, _, _, (exec_storing first rfl rfl _).trans
    ((exec_claiming_taken (briefRequest_keyed later) vacant held).trans answered), ?_,
    put_procs_self .., rfl, rfl, rfl⟩
  exact (put_procs_of_ne (by decide)).trans (put_procs_self ..)

/-! ## The exact condition -/

/-- **Requests are told apart exactly when `|` cannot move.** -/
theorem distinguished_iff (injective : Function.Injective sha256) {t u : Ticket}
    (first : dispatch cfg t.scope = .ok (.keyed t.key))
    (later : dispatch cfg u.scope = .ok (.keyed u.key)) :
    Distinguished cfg sha256 t u ↔ Unambiguous t u := by
  constructor
  · rintro ⟨replays, keys⟩
    have scope : t.keyText = u.keyText → SameScope t u := by
      intro same
      by_contra other
      exact keys other ((redisKey_eq_iff injective).mpr same)
    refine ⟨fun same => ?_, fun same content => ?_⟩
    · have agree := scope same
      rw [agree.caller, agree.method, agree.path]
      exact ⟨rfl, rfl, rfl⟩
    · obtain ⟨s, p, q, record, run, hp, hq, ht, hu, answered⟩ :=
        exec_storeThenFollow first later ((redisKey_eq_iff injective).mpr same)
          (congrArg sha256 content)
      rw [(replays _ s 0 1 p q record run hp hq ht hu answered).query]
  · intro clear
    constructor
    · rintro ls s first later p q record run hp hq rfl rfl answered
      obtain ⟨key, fingerprint⟩ :=
        agrees_of_replayed (fun _ => ⟨rfl, rfl⟩) (fun _ => rfl) run hp hq answered
      exact clear.sameRequest (keyText_of_redisKey injective key) (injective fingerprint)
    · exact fun other same => other (clear.sameScope (keyText_of_redisKey injective same))

/-- Orders to two paths are told apart. -/
theorem orders_and_refunds_distinguished :
    Distinguished {} decodeLatin1 orderTicket
      { orderTicket with scope := { orderScope with path := "/refunds" } } := by
  refine (distinguished_iff decodeLatin1_injective ?_ ?_).mpr ⟨fun same => ?_, fun same => ?_⟩
  · decide +kernel
  · decide +kernel
  · exact absurd same (by decide +kernel)
  · exact absurd same (by decide +kernel)

/-- A request to `/orders|b` with the key `c`. -/
def pipedPath : Ticket where
  scope := { orderScope with path := "/orders|b",
                             headers := [(encode "idempotency-key", encode "c")] }
  key := "c"
  body := encode "x"

/-- A request to `/orders?b` with the key `b|c`. -/
def pipedKey : Ticket where
  scope := { orderScope with queryString := encode "b",
                             headers := [(encode "idempotency-key", encode "b|c")] }
  key := "b|c"
  body := encode "|x"

/-- The second request is answered with the response stored for the first, to a
different path, key, query string and body. -/
theorem piped_path_shares_record :
    pipedPath.redisKey decodeLatin1 {} = pipedKey.redisKey decodeLatin1 {} ∧
      ∃ s ∈ exec (step {} decodeLatin1) {} (storeThenFollow pipedPath pipedKey),
        (∃ p ∈ s.procs 0, p.ticket = pipedPath) ∧
          ∃ q ∈ s.procs 1, q.ticket = pipedKey ∧
            q.phase = .ended (.replayed (briefRecord decodeLatin1 pipedPath) 0) := by
  decide +kernel

end PyCommon.Idempotency
