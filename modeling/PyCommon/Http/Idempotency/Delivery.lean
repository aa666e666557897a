import PyCommon.Http.Idempotency.Records
import PyCommon.Http.Idempotency.Stranding

/-!
# Responses that could not be delivered

The exception that `send` raises when the client is gone travels through the wrapped
app, and an app that lets it pass looks to the middleware like an app that crashed:
the reservation is released and nothing is recorded, although the response was
complete.

A call that owns its key runs to its end while nobody else changes what the key holds
(`Undisturbed`, `stage_of_run`). A later request is then answered from the response
exactly when the app returned in spite of the failure, and had handed over messages
that are recorded as that response (`replayed_after_failure_iff`). An app that sends
its messages and catches nothing is run twice (`lost_delivery_runs_twice`).
-/

set_option autoImplicit false

namespace PyCommon.Idempotency

open StepSystem

variable {cfg : IdempotencyMiddleware} {sha256 : Bytes → String}

/-! ## A call to its end -/

variable (cfg sha256) in
/-- Redis answers the call, and nothing but the call changes what the key holds. -/
def Undisturbed (key : String) (id : ℕ) (s : Sys) : Label → Prop
  | .elapse ms => Keyspace.evict (s.now + ms) s.store key = s.store key
  | .redis other => other ≠ id →
      ∀ next ∈ step cfg sha256 s (.redis other), next.store key = s.store key
  | .late other => ∀ next ∈ step cfg sha256 s (.late other), next.store key = s.store key
  | .resume other (some _) => other = id → ∀ p ∈ s.procs id, p.phase.atRedis = false
  | _ => True

instance (key : String) (id : ℕ) (s : Sys) (l : Label) :
    Decidable (Undisturbed cfg sha256 key id s l) :=
  match l with
  | .elapse ms => inferInstanceAs (Decidable
      (Keyspace.evict (s.now + ms) s.store key = s.store key))
  | .redis other => inferInstanceAs (Decidable (other ≠ id →
      ∀ next ∈ step cfg sha256 s (.redis other), next.store key = s.store key))
  | .late other => inferInstanceAs (Decidable
      (∀ next ∈ step cfg sha256 s (.late other), next.store key = s.store key))
  | .resume other (some _) => inferInstanceAs (Decidable
      (other = id → ∀ p ∈ s.procs id, p.phase.atRedis = false))
  | .resume _ none | .arrive _ _ | .timeout _ => isTrue trivial

/-- Where a call that owned its key has got to, against what its key holds. -/
inductive Proc.Stage (sha256 : Bytes → String) (id : ℕ) (held : Option (Keyspace.Slot Held))
    (p : Proc) : Prop
  | running (here : p.phase = .running)
      (marker : ∃ slot ∈ held, slot.value.writer = id ∧ slot.value.value.isDone = false)
  | deleting {result : Except PyExc Unit} (here : p.phase = .deleting result)
      (atEnd : p.app.result = some result)
      (dropped : result = .ok () → p.recorder.finish (p.ticket.fingerprint sha256) = none)
  | deleted {result : Except PyExc Unit}
      (here : p.phase = .deleteReply result ∨ ∃ ending, p.phase = .ended ending)
      (free : held = none)
      (atEnd : p.app.result = some result)
      (dropped : result = .ok () → p.recorder.finish (p.ticket.fingerprint sha256) = none)
  | cancelled {ending : Ending} (here : p.phase = .ended ending)
      (marker : ∃ slot ∈ held, slot.value.writer = id ∧ slot.value.value.isDone = false)
      (atEnd : p.app.result = some (.error .cancelledError))
  | storing {record : DoneRecord} (here : p.phase = .storing record)
      (atEnd : p.app.result = some (.ok ()))
      (recorded : p.recorder.finish (p.ticket.fingerprint sha256) = some record)
  | stored {record : DoneRecord} {deadline : ℕ} (here : p.phase.settled)
      (done : held = some ⟨⟨.done record, id⟩, deadline⟩)
      (atEnd : p.app.result = some (.ok ()))
      (recorded : p.recorder.finish (p.ticket.fingerprint sha256) = some record)

/-- Going on from an await keeps the stage, when no Redis command of the call failed. -/
theorem Proc.Stage.resumes {now id : ℕ} {held : Option (Keyspace.Slot Held)}
    {fault : Option PyExc} {p q : Proc} (stage : p.Stage sha256 id held)
    (moves : p.Resumes cfg sha256 now fault q)
    (answers : fault ≠ none → p.phase.atRedis = false) : q.Stage sha256 id held := by
  cases stage with
  | running here marker =>
      cases moves with
      | awaited _ taken => exact .running ((await_frame taken).1.trans here) marker
      | @appEnded result _ atEnd =>
          rcases appEnded_cases sha256 p result with
            ⟨record, led, rfl, finished⟩ | ⟨led, dropped⟩ | ⟨led, rfl⟩
          · exact .storing led atEnd finished
          · exact .deleting led atEnd dropped
          · exact .cancelled led marker atEnd
      | _ => simp_all [Phase.claiming]
  | deleting here atEnd dropped =>
      cases moves with
      | deleteFailed =>
          have quiet := answers (Option.some_ne_none _)
          rw [here] at quiet
          cases quiet
      | _ => simp_all [Phase.claiming]
  | deleted here free atEnd dropped =>
      rcases here with reply | ⟨ending, ended⟩
      · cases moves with
        | deleted => exact .deleted (.inr ⟨_, rfl⟩) free atEnd dropped
        | _ => simp_all [Phase.claiming]
      · exact absurd moves (not_resumes_of_ended ended)
  | cancelled here marker atEnd => exact absurd moves (not_resumes_of_ended here)
  | storing here atEnd recorded =>
      cases moves with
      | storeFailed =>
          have quiet := answers (Option.some_ne_none _)
          rw [here] at quiet
          cases quiet
      | _ => simp_all [Phase.claiming]
  | stored here done atEnd recorded =>
      obtain ⟨settled, app, recorder⟩ := settled_of_resumes moves here
      have ticket := ticket_of_resumes moves (by rintro before; rw [before] at here; cases here)
      rw [← app] at atEnd
      rw [← recorder, ← ticket] at recorded
      exact .stored settled done atEnd recorded

/-- The execution of a command of the call moves it to the next stage. -/
theorem Proc.Stage.executes {now id : ℕ} {store after : Store} {p : Proc} {phase : Phase}
    (stage : p.Stage sha256 id (store (p.redisKey cfg sha256)))
    (does : p.Executes cfg sha256 now id store after phase) :
    ({ p with phase } : Proc).Stage sha256 id (after (p.redisKey cfg sha256)) := by
  cases does with
  | delete sent =>
      cases stage with
      | deleting here atEnd dropped =>
          obtain rfl := Phase.deleting.inj (sent.symm.trans here)
          exact .deleted (.inl rfl) (Keyspace.delete_self ..) atEnd dropped
      | _ => simp_all [Phase.settled]
  | store sent =>
      cases stage with
      | storing here atEnd recorded =>
          obtain rfl := Phase.storing.inj (sent.symm.trans here)
          exact .stored rfl (Keyspace.write_self ..) atEnd recorded
      | _ => simp_all [Phase.settled]
  | _ => cases stage <;> simp_all [Phase.settled]

/-- Once the call has ended its key holds a record exactly when the app returned and
the recorder made that record. -/
theorem Proc.Stage.holds_record_iff {id : ℕ} {held : Option (Keyspace.Slot Held)} {p : Proc}
    {record : DoneRecord} (stage : p.Stage sha256 id held) (atEnd : p.phase.inProgress = false) :
    (∃ slot ∈ held, slot.value = ⟨.done record, id⟩) ↔
      p.app.result = some (.ok ()) ∧
        p.recorder.finish (p.ticket.fingerprint sha256) = some record := by
  cases stage with
  | running here => rw [here] at atEnd; cases atEnd
  | deleting here => rw [here] at atEnd; cases atEnd
  | storing here => rw [here] at atEnd; cases atEnd
  | deleted here free result dropped =>
      subst free
      constructor
      · rintro ⟨_, absent, _⟩
        cases absent
      · rintro ⟨returned, recorded⟩
        obtain rfl := Option.some.inj (result.symm.trans returned)
        cases (dropped rfl).symm.trans recorded
  | cancelled here marker result =>
      obtain ⟨slot, there, _, inFlight⟩ := marker
      constructor
      · rintro ⟨slot', also, done⟩
        obtain rfl := Option.some.inj (there.symm.trans also)
        rw [done] at inFlight
        cases inFlight
      · rintro ⟨returned, _⟩
        cases result.symm.trans returned
  | stored here done result finished =>
      subst done
      simp [result, finished, eq_comm]

variable (cfg sha256) in
/-- The call with this ticket is at some stage. -/
def Sys.Underway (id : ℕ) (ticket : Ticket) (s : Sys) : Prop :=
  ∃ p, s.procs id = some p ∧ p.phase ≠ .buffering ∧ p.ticket = ticket ∧
    p.Stage sha256 id (s.store (ticket.redisKey sha256 cfg))

/-- A step that is no command of the call leaves what its key holds. -/
theorem held_of_undisturbed {s next : Sys} {l : Label} {id : ℕ} {key : String}
    (undisturbed : Undisturbed cfg sha256 key id s l) (other : l ≠ .redis id)
    (taken : step cfg sha256 s l = some next) : next.store key = s.store key := by
  cases l with
  | arrive _ request =>
      obtain ⟨_, rfl⟩ := step_arrive.mp taken
      rfl
  | elapse ms =>
      obtain rfl := Option.some.inj taken
      exact undisturbed
  | timeout _ =>
      obtain ⟨_, _, _, rfl⟩ := step_timeout.mp taken
      rfl
  | resume _ fault =>
      obtain ⟨p, _, _, _, _, rfl⟩ := step_resume.mp taken
      exact congrFun (leave_store s _ p) key
  | redis another =>
      refine undisturbed ?_ next taken
      rintro rfl
      exact other rfl
  | late _ => exact undisturbed next taken

theorem Proc.Stage.timedOut {id : ℕ} {held : Option (Keyspace.Slot Held)} {p : Proc}
    (stage : p.Stage sha256 id held) :
    ({ p with timedOut := true } : Proc).Stage sha256 id held := by
  cases stage with
  | running here marker => exact .running here marker
  | deleting here atEnd dropped => exact .deleting here atEnd dropped
  | deleted here free atEnd dropped => exact .deleted here free atEnd dropped
  | cancelled here marker atEnd => exact .cancelled here marker atEnd
  | storing here atEnd recorded => exact .storing here atEnd recorded
  | stored here done atEnd recorded => exact .stored here done atEnd recorded

theorem underway_step {s next : Sys} {l : Label} {id : ℕ} {ticket : Ticket}
    (undisturbed : Undisturbed cfg sha256 (ticket.redisKey sha256 cfg) id s l)
    (underway : s.Underway cfg sha256 id ticket) (taken : step cfg sha256 s l = some next) :
    next.Underway cfg sha256 id ticket := by
  obtain ⟨p, there, read, rfl, stage⟩ := underway
  obtain ⟨q, after, goes⟩ := goes_of_step there taken
  -- what the key holds changes in a command of the call only
  have kept := fun other => held_of_undisturbed undisturbed other taken
  refine ⟨q, after, ?_⟩
  cases goes with
  | still other => exact ⟨read, rfl, kept other ▸ stage⟩
  | timedOut => exact ⟨read, rfl, kept nofun ▸ stage.timedOut⟩
  | @resumed fault _ moves =>
      refine ⟨ne_buffering_of_resumes moves, ticket_of_resumes moves read, ?_⟩
      refine kept nofun ▸ stage.resumes moves fun failed => ?_
      cases fault with
      | none => exact absurd rfl failed
      | some e => exact undisturbed rfl p there
  | executed does => exact ⟨(ne_of_executes does).1, rfl, stage.executes does⟩

/-- **A call to its end.** A call that owns its key with its marker in place runs to
one of its ends, and which one it is can be read off what the key then holds. -/
theorem stage_of_run {s u : Sys} {ls : List Label} {id : ℕ} {p q : Proc}
    (there : s.procs id = some p) (running : p.phase = .running)
    (marker : s.HoldsMarker cfg sha256 id p) (run : exec (step cfg sha256) s ls = some u)
    (undisturbed : EveryStep (step cfg sha256)
      (Undisturbed cfg sha256 (p.redisKey cfg sha256) id) s ls)
    (after : u.procs id = some q) :
    q.ticket = p.ticket ∧ q.Stage sha256 id (u.store (p.redisKey cfg sha256)) := by
  have start : Sys.Underway cfg sha256 id p.ticket s :=
    ⟨p, there, by rw [running]; nofun, rfl, .running running marker⟩
  have final : Sys.Underway cfg sha256 id p.ticket u := by
    refine exec_invariant (fun s l next undisturbed underway taken => ?_) run undisturbed start
    exact underway_step undisturbed underway taken
  obtain ⟨q', also, _, ticket, stage⟩ := final
  obtain rfl := Option.some.inj (after.symm.trans also)
  exact ⟨ticket, stage⟩

/-! ## Answering a later request -/

/-- Requests with the same scope share a Redis key. -/
theorem SameScope.redisKey {t u : Ticket} (same : SameScope t u) :
    t.redisKey sha256 cfg = u.redisKey sha256 cfg := by
  rw [Ticket.redisKey, same.keyText]
  rfl

/-- **When a response outlives its delivery.** A call owns its key with its marker in
place, and ends. A later request for the same key and body is then answered from a
complete response that fits if and only if the app returned, the messages it had
handed over are recorded as that response, and the two requests have the same
fingerprint. -/
theorem replayed_after_failure_iff {r s u : Sys} {ls ms : List Label} {id later : ℕ} {p q : Proc}
    {request : Request} {ticket : Ticket} {receiver : Receiver} {messages : List SendMessage}
    (fresh : ∀ id, r.procs id = none) (begun : exec (step cfg sha256) r ls = some s)
    (there : s.procs id = some p) (running : p.phase = .running)
    (marker : s.HoldsMarker cfg sha256 id p) (run : exec (step cfg sha256) s ms = some u)
    (undisturbed : EveryStep (step cfg sha256)
      (Undisturbed cfg sha256 (p.redisKey cfg sha256) id) s ms)
    (after : u.procs id = some q) (atEnd : q.phase.inProgress = false)
    (complete : CompleteResponse cfg.maxStoredBytes messages)
    (keyed : request.Keyed cfg ticket receiver) (vacant : u.procs later = none)
    (same : SameScope p.ticket ticket) :
    (∃ record ∈ (recordAll cfg.maxStoredBytes {} messages).finish (p.ticket.fingerprint sha256),
        AnsweredBy cfg sha256 u later request record id) ↔
      q.app.result = some (.ok ()) ∧
        (recordAll cfg.maxStoredBytes {} q.handed).finish (p.ticket.fingerprint sha256) =
          (recordAll cfg.maxStoredBytes {} messages).finish (p.ticket.fingerprint sha256) ∧
        p.ticket.fingerprint sha256 = ticket.fingerprint sha256 := by
  obtain ⟨sameTicket, stage⟩ := stage_of_run there running marker run undisturbed after
  have follows : q.recorder = recordAll cfg.maxStoredBytes {} q.handed :=
    follows_of_run fresh ((exec_append_of_eq_some begun).trans run) after
  have kept : (recordAll cfg.maxStoredBytes {} messages).finish (p.ticket.fingerprint sha256) ≠
      none := complete.finish_ne_none
  obtain ⟨record, recorded⟩ := Option.ne_none_iff_exists'.mp kept
  have sameKey : ticket.redisKey sha256 cfg = p.redisKey cfg sha256 := same.redisKey.symm
  have own : record.fingerprint = p.ticket.fingerprint sha256 := fingerprint_of_finish recorded
  rw [recorded]
  simp only [Option.mem_some_iff, exists_eq_left']
  rw [answeredBy_iff keyed vacant, sameKey, own, ← and_assoc]
  refine and_congr_left' ?_
  rw [stage.holds_record_iff atEnd, sameTicket, follows]

/-- An order whose handler ignores that its messages could not be sent. -/
def steadyOrder : Request :=
  { order 201 with app := .send (.start 201 []) fun _ => .send (.body [] false) fun _ => .done }

/-- The client is gone when the last message is sent. -/
def undelivered (id : ℕ) : List Label :=
  [.resume id none, .resume id (some (.error 32)), .resume id none] ++ settling id

theorem orderTicket_keyed : (order 201).Keyed {} orderTicket ⟨some [], []⟩ := by
  constructor <;> decide +kernel

/-- The order that ignores the failure is recorded, and its retry answered. -/
theorem steady_order_replayed :
    let sent : List SendMessage := [.start 201 [], .body [] false]
    ∃ u ∈ exec (step {} decodeLatin1) {} (claiming 0 steadyOrder ++ undelivered 0),
      ∃ record ∈ (recordAll 262144 {} sent).finish (orderTicket.fingerprint decodeLatin1),
        AnsweredBy {} decodeLatin1 u 1 (order 201) record 0 := by
  intro sent
  obtain ⟨s, begun, p, there, running, ticket, marker, u, run, undisturbed, vacant, q, after,
      atEnd, returned, handed⟩ :
      ∃ s ∈ exec (step {} decodeLatin1) {} (claiming 0 steadyOrder),
        ∃ p ∈ s.procs 0, p.phase = .running ∧ p.ticket = orderTicket ∧
          s.HoldsMarker {} decodeLatin1 0 p ∧
          ∃ u ∈ exec (step {} decodeLatin1) s (undelivered 0),
            EveryStep (step {} decodeLatin1)
              (Undisturbed {} decodeLatin1 (p.redisKey {} decodeLatin1) 0) s (undelivered 0) ∧
            u.procs 1 = none ∧ ∃ q ∈ u.procs 0, q.phase.inProgress = false ∧
              q.app.result = some (.ok ()) ∧ q.handed = sent := by
    decide +kernel
  have complete : CompleteResponse 262144 sent := by constructor <;> decide +kernel
  have same : SameScope p.ticket orderTicket := by rw [ticket]; exact ⟨rfl, rfl, rfl, rfl⟩
  refine ⟨u, (exec_append_of_eq_some begun).trans run, ?_⟩
  rw [← ticket]
  refine (replayed_after_failure_iff (fun _ => rfl) begun there running marker run undisturbed
    after atEnd complete orderTicket_keyed vacant same).mpr ⟨returned, ?_, ?_⟩
  · rw [handed]
  · rw [ticket]

/-- The client is gone before the last message, and tries again. -/
def lostDelivery : List Label := claiming 0 (order 201) ++ undelivered 0 ++ claiming 1 (order 201)

/-- The handler has handed over a complete response, the call has ended with what
`send` raised, and the retry runs the handler again. -/
theorem lost_delivery_runs_twice :
    EveryStep (step {} decodeLatin1) RedisAnswers {} lostDelivery ∧
      ∃ s ∈ exec (step {} decodeLatin1) {} lostDelivery,
        (∃ p ∈ s.procs 0, CompleteResponse 262144 p.handed ∧
          p.phase = .ended (.raised (.error 32))) ∧
        ∃ p ∈ s.procs 1, p.phase = .running := by
  have answers : EveryStep (step {} decodeLatin1) RedisAnswers {} lostDelivery := by
    decide +kernel
  obtain ⟨s, run, ⟨p, there, handed, atEnd⟩, again⟩ :
      ∃ s ∈ exec (step {} decodeLatin1) {} lostDelivery,
        (∃ p ∈ s.procs 0, p.handed = [.start 201 [], .body [] false] ∧
          p.phase = .ended (.raised (.error 32))) ∧
        ∃ p ∈ s.procs 1, p.phase = .running := by
    decide +kernel
  refine ⟨answers, s, run, ⟨p, there, ?_, atEnd⟩, again⟩
  rw [handed]
  constructor <;> decide +kernel

end PyCommon.Idempotency
