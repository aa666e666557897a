import PyCommon.Http.Idempotency.Protocol

/-!
# What a step can do

Each step moves one request, and only the execution of a command, awaited or late, or
the passage of time changes the store. `resumes_of_resume` and `executes_of_command` list the ways
a request moves, one constructor each; everything later is a case analysis over
these lists.
-/

set_option autoImplicit false

namespace PyCommon.Idempotency

open StepSystem

variable {cfg : IdempotencyMiddleware} {sha256 : Bytes → String}

/-! ## Labels -/

theorem put_procs_self (s : Sys) (id : ℕ) (p : Proc) : (s.put id p).procs id = some p :=
  Function.update_self ..

theorem put_procs_of_ne {s : Sys} {id other : ℕ} {p : Proc} (different : other ≠ id) :
    (s.put id p).procs other = s.procs other :=
  Function.update_of_ne different ..

/-- A request after a step is the moved one or was there before. -/
theorem procs_put_cases {s : Sys} {id other : ℕ} {p q : Proc}
    (there : (s.put id p).procs other = some q) :
    (other = id ∧ q = p) ∨ (other ≠ id ∧ s.procs other = some q) := by
  by_cases same : other = id
  · subst same
    rw [put_procs_self] at there
    exact .inl ⟨rfl, (Option.some.inj there).symm⟩
  · rw [put_procs_of_ne same] at there
    exact .inr ⟨same, there⟩

@[simp] theorem leave_now (s : Sys) (id : ℕ) (p : Proc) : (s.leave id p).now = s.now := by
  unfold Sys.leave
  split <;> rfl

@[simp] theorem leave_store (s : Sys) (id : ℕ) (p : Proc) : (s.leave id p).store = s.store := by
  unfold Sys.leave
  split <;> rfl

@[simp] theorem leave_procs (s : Sys) (id : ℕ) (p : Proc) : (s.leave id p).procs = s.procs := by
  unfold Sys.leave
  split <;> rfl

/-- An abandoned command was abandoned in this step, or is an older one. -/
theorem abandoned_leave_cases {s : Sys} {id other : ℕ} {p q : Proc}
    (there : (s.leave id p).abandoned other = some q) :
    (other = id ∧ q = p ∧ p.phase.sent) ∨ s.abandoned other = some q := by
  unfold Sys.leave at there
  split at there
  · rename_i sent
    by_cases same : other = id
    · subst same
      have here := (Function.update_self ..).symm.trans there
      exact .inl ⟨rfl, (Option.some.inj here).symm, sent⟩
    · exact .inr ((Function.update_of_ne same ..).symm.trans there)
  · exact .inr there

theorem step_arrive {s next : Sys} {id : ℕ} {request : Request} :
    step cfg sha256 s (.arrive id request) = some next ↔
      s.procs id = none ∧ next = s.put id (request.begin cfg) := by
  cases there : s.procs id with
  | none => simp [step, there, eq_comm]
  | some p => simp [step, there]

theorem step_timeout {s next : Sys} {id : ℕ} :
    step cfg sha256 s (.timeout id) = some next ↔
      ∃ p, s.procs id = some p ∧ p.started = false ∧
        next = s.put id { p with timedOut := true } := by
  cases there : s.procs id with
  | none => simp [step, there]
  | some p =>
      simp only [step, there, Option.bind_some, Option.some.injEq]
      constructor
      · intro taken
        split at taken
        · cases taken
        · rename_i silent
          exact ⟨p, rfl, by simpa using silent, (Option.some.inj taken).symm⟩
      · rintro ⟨_, rfl, silent, rfl⟩
        simp [silent]

theorem step_resume {s next : Sys} {id : ℕ} {fault : Option PyExc} :
    step cfg sha256 s (.resume id fault) = some next ↔
      ∃ p q, s.procs id = some p ∧ (fault = some .cancelledError → p.timedOut) ∧
        p.resume cfg sha256 s.now fault = some q ∧ next = (s.leave id p).put id q := by
  cases there : s.procs id with
  | none => simp [step, there]
  | some p =>
      by_cases early : fault = some .cancelledError ∧ ¬ p.timedOut
      · simp [step, there, early]
      · have allowed : fault = some .cancelledError → p.timedOut := by
          intro cancelled
          by_contra quiet
          exact early ⟨cancelled, quiet⟩
        simp only [step, there, Option.bind_some, if_neg early, Option.map_eq_some_iff,
          Option.some.injEq]
        constructor
        · rintro ⟨q, moved, rfl⟩
          exact ⟨p, q, rfl, allowed, moved, rfl⟩
        · rintro ⟨_, q, rfl, _, moved, rfl⟩
          exact ⟨q, moved, rfl⟩

theorem step_redis {s next : Sys} {id : ℕ} :
    step cfg sha256 s (.redis id) = some next ↔
      ∃ p q store, s.procs id = some p ∧
        p.command cfg sha256 s.now id s.store = some (store, q) ∧
        next = { s.put id q with store } := by
  cases there : s.procs id with
  | none => simp [step, there]
  | some p =>
      simp only [step, there, Option.bind_some, Option.map_eq_some_iff, Option.some.injEq,
        Prod.exists]
      constructor
      · rintro ⟨store, q, moved, rfl⟩
        exact ⟨p, q, store, rfl, moved, rfl⟩
      · rintro ⟨_, q, store, rfl, moved, rfl⟩
        exact ⟨store, q, moved, rfl⟩

theorem step_late {s next : Sys} {id : ℕ} :
    step cfg sha256 s (.late id) = some next ↔
      ∃ p q store, s.abandoned id = some p ∧
        p.command cfg sha256 s.now id s.store = some (store, q) ∧
        next = { s with store, abandoned := Function.update s.abandoned id none } := by
  cases there : s.abandoned id with
  | none => simp [step, there]
  | some p =>
      simp only [step, there, Option.bind_some, Option.map_eq_some_iff, Option.some.injEq,
        Prod.exists]
      constructor
      · rintro ⟨store, q, moved, rfl⟩
        exact ⟨p, q, store, rfl, moved, rfl⟩
      · rintro ⟨_, q, store, rfl, moved, rfl⟩
        exact ⟨store, q, moved, rfl⟩

/-! ## Commands -/

variable (cfg sha256) in
/-- The commands the server can execute for a call, with the store they leave and
the phase the call is then in. -/
inductive Proc.Executes (now id : ℕ) (store : Store) (p : Proc) : Store → Phase → Prop
  | win (sent : p.phase = .setting) (free : store (p.redisKey cfg sha256) = none) :
      Executes now id store p
        (Keyspace.write store (p.redisKey cfg sha256)
          ⟨.inFlight (p.ticket.fingerprint sha256), id⟩ (now + cfg.ttlSeconds * 1000))
        (.setReply true)
  | lose {slot : Keyspace.Slot Held} (sent : p.phase = .setting)
      (taken : store (p.redisKey cfg sha256) = some slot) :
      Executes now id store p store (.setReply false)
  | get (sent : p.phase = .getting) :
      Executes now id store p store
        (.getReply ((store (p.redisKey cfg sha256)).map Keyspace.Slot.value))
  | delete {result : Except PyExc Unit} (sent : p.phase = .deleting result) :
      Executes now id store p (Keyspace.delete store (p.redisKey cfg sha256))
        (.deleteReply result)
  | store {record : DoneRecord} (sent : p.phase = .storing record) :
      Executes now id store p
        (Keyspace.write store (p.redisKey cfg sha256) ⟨.done record, id⟩
          (now + cfg.ttlSeconds * 1000))
        .storeReply

theorem executes_of_command {now id : ℕ} {store after : Store} {p q : Proc}
    (taken : p.command cfg sha256 now id store = some (after, q)) :
    ∃ phase, p.Executes cfg sha256 now id store after phase ∧ q = { p with phase } := by
  unfold Proc.command at taken
  split at taken
  · rename_i sent
    dsimp only at taken
    split at taken
    · rename_i free
      obtain ⟨rfl, rfl⟩ := Prod.mk.inj (Option.some.inj taken)
      exact ⟨_, .win sent free, rfl⟩
    · rename_i held
      obtain ⟨rfl, rfl⟩ := Prod.mk.inj (Option.some.inj taken)
      exact ⟨_, .lose sent held, rfl⟩
  · rename_i sent
    obtain ⟨rfl, rfl⟩ := Prod.mk.inj (Option.some.inj taken)
    exact ⟨_, .get sent, rfl⟩
  · rename_i sent
    obtain ⟨rfl, rfl⟩ := Prod.mk.inj (Option.some.inj taken)
    exact ⟨_, .delete sent, rfl⟩
  · rename_i sent
    obtain ⟨rfl, rfl⟩ := Prod.mk.inj (Option.some.inj taken)
    exact ⟨_, .store sent, rfl⟩
  · cases taken

theorem sent_of_executes {now id : ℕ} {store after : Store} {p : Proc} {phase : Phase}
    (does : p.Executes cfg sha256 now id store after phase) : p.phase.sent := by
  cases does with
  | _ sent => rw [sent]; rfl

/-- What a `GET` replies is what the key holds. -/
theorem getReply_of_executes {now id : ℕ} {store after : Store} {p : Proc} {phase : Phase}
    {raw : Option Held} (does : p.Executes cfg sha256 now id store after phase)
    (reply : phase = .getReply raw) :
    p.phase = .getting ∧ (store (p.redisKey cfg sha256)).map Keyspace.Slot.value = raw := by
  subst reply
  cases does with
  | get sent => exact ⟨sent, rfl⟩

/-- After a command a call awaits its reply. -/
theorem ne_of_executes {now id : ℕ} {store after : Store} {p : Proc} {phase : Phase}
    (does : p.Executes cfg sha256 now id store after phase) :
    phase ≠ .buffering ∧ phase ≠ .unrecorded ∧ ∀ ending, phase ≠ .ended ending := by
  refine ⟨?_, ?_, fun ending => ?_⟩
  all_goals
    rintro rfl
    cases does

/-! ## Resumptions -/

/-- The awaits inside `_claim`. -/
def Phase.claiming : Phase → Bool
  | .setting => true
  | .setReply _ => true
  | .getting => true
  | .getReply _ => true
  | _ => false

variable (cfg sha256) in
/-- The ways a call goes on from the await it stands at. -/
inductive Proc.Resumes (now : ℕ) (p : Proc) : Option PyExc → Proc → Prop
  | buffered {body : Bytes} {receiver : Receiver} (here : p.phase = .buffering)
      (read : bufferBody [] p.receiver.stream = some (body, receiver)) :
      Resumes now p none { p with ticket := { p.ticket with body }, receiver, phase := .setting }
  | unread {e : PyExc} (here : p.phase = .buffering) :
      Resumes now p (some e) { p with phase := .ended (.raised e) }
  | won (here : p.phase = .setReply true) : Resumes now p none { p with phase := .running }
  | lost (here : p.phase = .setReply false) : Resumes now p none { p with phase := .getting }
  | absent (here : p.phase = .getReply none) : Resumes now p none { p with phase := .running }
  | present {held : Held} (here : p.phase = .getReply (some held)) :
      Resumes now p none { p with phase := .ended (p.handleExisting sha256 now held) }
  | claimFailed {e : PyExc} (here : p.phase.claiming) :
      Resumes now p (some e) { p with phase := p.claimFailed cfg now e }
  | awaited {fault : Option PyExc} {q : Proc} (here : p.phase = .running)
      (taken : p.await cfg true fault = some q) : Resumes now p fault q
  | appEnded {result : Except PyExc Unit} (here : p.phase = .running)
      (atEnd : p.app.result = some result) :
      Resumes now p none { p with phase := p.appEnded sha256 result }
  | deleteFailed {result : Except PyExc Unit} {e : PyExc} (here : p.phase = .deleting result) :
      Resumes now p (some e) { p with phase := .ended (swallow (.ofResult result) (some e)) }
  | deleted {result : Except PyExc Unit} {fault : Option PyExc}
      (here : p.phase = .deleteReply result) :
      Resumes now p fault { p with phase := .ended (swallow (.ofResult result) fault) }
  | storeFailed {record : DoneRecord} {e : PyExc} (here : p.phase = .storing record) :
      Resumes now p (some e) { p with phase := .ended (swallow .returned (some e)) }
  | stored {fault : Option PyExc} (here : p.phase = .storeReply) :
      Resumes now p fault { p with phase := .ended (swallow .returned fault) }
  | unrecorded {fault : Option PyExc} {q : Proc} (here : p.phase = .unrecorded)
      (taken : p.await cfg false fault = some q) : Resumes now p fault q
  | unrecordedEnded {result : Except PyExc Unit} (here : p.phase = .unrecorded)
      (atEnd : p.app.result = some result) :
      Resumes now p none { p with phase := .ended (.ofResult result) }

theorem resumes_of_resume {now : ℕ} {p q : Proc} {fault : Option PyExc}
    (taken : p.resume cfg sha256 now fault = some q) : p.Resumes cfg sha256 now fault q := by
  unfold Proc.resume at taken
  split at taken
  all_goals rename_i here
  · obtain ⟨⟨body, receiver⟩, read, rfl⟩ := Option.map_eq_some_iff.mp taken
    exact .buffered here read
  · obtain rfl := Option.some.inj taken
    exact .unread here
  · obtain ⟨e, rfl, rfl⟩ := Option.map_eq_some_iff.mp taken
    exact .claimFailed (by rw [here]; rfl)
  · rename_i won
    obtain rfl := Option.some.inj taken
    cases won with
    | true => exact .won here
    | false => exact .lost here
  · obtain rfl := Option.some.inj taken
    exact .claimFailed (by rw [here]; rfl)
  · obtain ⟨e, rfl, rfl⟩ := Option.map_eq_some_iff.mp taken
    exact .claimFailed (by rw [here]; rfl)
  · obtain rfl := Option.some.inj taken
    exact .absent here
  · obtain rfl := Option.some.inj taken
    exact .present here
  · obtain rfl := Option.some.inj taken
    exact .claimFailed (by rw [here]; rfl)
  · split at taken
    · exact .awaited here taken
    · rename_i atEnd
      obtain rfl := Option.some.inj taken
      exact .appEnded here atEnd
    · cases taken
  · obtain ⟨e, rfl, rfl⟩ := Option.map_eq_some_iff.mp taken
    exact .deleteFailed here
  · obtain rfl := Option.some.inj taken
    exact .deleted here
  · obtain ⟨e, rfl, rfl⟩ := Option.map_eq_some_iff.mp taken
    exact .storeFailed here
  · obtain rfl := Option.some.inj taken
    exact .stored here
  · split at taken
    · exact .unrecorded here taken
    · rename_i atEnd
      obtain rfl := Option.some.inj taken
      exact .unrecordedEnded here atEnd
    · cases taken
  · cases taken

/-- A call goes on without a fault only from an await that is over, so it leaves no
command behind. -/
theorem sent_of_resumes {now : ℕ} {p q : Proc} (moves : p.Resumes cfg sha256 now none q) :
    p.phase.sent = false := by
  cases moves with
  | _ here => rw [here]; rfl

/-- The call sends no command any more. -/
def Phase.over : Phase → Bool
  | .unrecorded => true
  | .ended _ => true
  | _ => false

theorem not_executes_of_over {now id : ℕ} {store after : Store} {p : Proc} {phase : Phase}
    (finished : p.phase.over) : ¬ p.Executes cfg sha256 now id store after phase := by
  intro does
  have sent := sent_of_executes does
  cases here : p.phase with
  | unrecorded | ended =>
      rw [here] at sent
      cases sent
  | _ =>
      rw [here] at finished
      cases finished

/-- A call that has ended does not go on. -/
theorem not_resumes_of_ended {now : ℕ} {fault : Option PyExc} {p q : Proc} {ending : Ending}
    (atEnd : p.phase = .ended ending) : ¬ p.Resumes cfg sha256 now fault q := by
  intro moves
  cases moves <;> simp_all [Phase.claiming]

/-! ## Where a failed claim and an ended app lead -/

theorem claimFailed_cases (cfg : IdempotencyMiddleware) (now : ℕ) (p : Proc) (e : PyExc) :
    (p.claimFailed cfg now e = .unrecorded ∧ e = .redisError) ∨
      (∃ detail, p.claimFailed cfg now e = .ended (.problem detail)) ∨
      p.claimFailed cfg now e = .ended (.raised e) := by
  unfold Proc.claimFailed
  by_cases failed : e = .redisError
  · rw [if_pos failed]
    by_cases allowed : cfg.failOpen
    · exact .inl ⟨if_pos allowed, failed⟩
    · exact .inr (.inl ⟨_, if_neg allowed⟩)
  · exact .inr (.inr (if_neg failed))

/-- An app that has ended is recorded, released, or was cancelled. -/
theorem appEnded_cases (sha256 : Bytes → String) (p : Proc) (result : Except PyExc Unit) :
    (∃ record, p.appEnded sha256 result = .storing record ∧ result = .ok () ∧
        p.recorder.finish (p.ticket.fingerprint sha256) = some record) ∨
      (p.appEnded sha256 result = .deleting result ∧
        (result = .ok () → p.recorder.finish (p.ticket.fingerprint sha256) = none)) ∨
      (p.appEnded sha256 result = .ended (.raised .cancelledError) ∧
        result = .error .cancelledError) := by
  cases result with
  | ok value =>
      simp only [Proc.appEnded]
      cases finished : p.recorder.finish (p.ticket.fingerprint sha256) with
      | none => exact .inr (.inl ⟨rfl, fun _ => rfl⟩)
      | some record => exact .inl ⟨record, rfl, trivial, rfl⟩
  | error e =>
      simp only [Proc.appEnded]
      by_cases exception : e.isException
      · exact .inr (.inl ⟨if_pos exception, fun returned => by cases returned⟩)
      · obtain rfl := eq_cancelledError_of_not_isException exception
        exact .inr (.inr ⟨rfl, rfl⟩)

theorem claimFailed_over (cfg : IdempotencyMiddleware) (now : ℕ) (p : Proc) (e : PyExc) :
    (p.claimFailed cfg now e).over := by
  rcases claimFailed_cases cfg now p e with ⟨led, _⟩ | ⟨_, led⟩ | led
  all_goals rw [led]; rfl

/-! ## What never changes -/

/-- An await of the app changes the app and what it reads and sends with. -/
theorem await_frame {recorded : Bool} {fault : Option PyExc} {p q : Proc}
    (taken : p.await cfg recorded fault = some q) :
    q.phase = p.phase ∧ q.ticket = p.ticket ∧ q.timedOut = p.timedOut := by
  unfold Proc.await at taken
  split at taken
  · cases taken
  · cases taken
  · split at taken
    · obtain rfl := Option.some.inj taken
      exact ⟨rfl, rfl, rfl⟩
    · obtain ⟨_, _, rfl⟩ := Option.map_eq_some_iff.mp taken
      exact ⟨rfl, rfl, rfl⟩
  · obtain rfl := Option.some.inj taken
    exact ⟨rfl, rfl, rfl⟩
  · split at taken
    · obtain rfl := Option.some.inj taken
      unfold Proc.sendRecorded
      split <;> exact ⟨rfl, rfl, rfl⟩
    · obtain rfl := Option.some.inj taken
      exact ⟨rfl, rfl, rfl⟩

/-- An app that has ended has no await left. -/
theorem result_of_await {recorded : Bool} {fault : Option PyExc} {p q : Proc}
    (taken : p.await cfg recorded fault = some q) : p.app.result = none := by
  unfold Proc.await at taken
  cases app : p.app with
  | done => rw [app] at taken; cases taken
  | raise e => rw [app] at taken; cases taken
  | _ => rfl

/-- Once the body has been read a call keeps its ticket. -/
theorem ticket_of_resumes {now : ℕ} {fault : Option PyExc} {p q : Proc}
    (moves : p.Resumes cfg sha256 now fault q) (read : p.phase ≠ .buffering) :
    q.ticket = p.ticket := by
  cases moves with
  | buffered here => exact absurd here read
  | awaited here taken => exact (await_frame taken).2.1
  | unrecorded here taken => exact (await_frame taken).2.1
  | _ => rfl

/-- The scope and the idempotency key, and so the Redis key, never change. -/
theorem scope_key_of_resumes {now : ℕ} {fault : Option PyExc} {p q : Proc}
    (moves : p.Resumes cfg sha256 now fault q) :
    q.ticket.scope = p.ticket.scope ∧ q.ticket.key = p.ticket.key := by
  by_cases read : p.phase = .buffering
  · cases moves with
    | buffered => exact ⟨rfl, rfl⟩
    | awaited here taken => rw [(await_frame taken).2.1]; exact ⟨rfl, rfl⟩
    | unrecorded here taken => rw [(await_frame taken).2.1]; exact ⟨rfl, rfl⟩
    | _ => exact ⟨rfl, rfl⟩
  · rw [ticket_of_resumes moves read]
    exact ⟨rfl, rfl⟩

/-- The phases in which a call starts, and in which it has the reply to its `GET`, are not
entered by resuming it. -/
theorem unentered_of_resumes {now : ℕ} {fault : Option PyExc} {p q : Proc} {phase : Phase}
    (moves : p.Resumes cfg sha256 now fault q)
    (unentered : phase = .buffering ∨ ∃ raw, phase = .getReply raw) : q.phase ≠ phase := by
  intro entered
  rcases unentered with rfl | ⟨raw, rfl⟩
  all_goals
    cases moves with
    | awaited here taken => rw [(await_frame taken).1, here] at entered; cases entered
    | unrecorded here taken => rw [(await_frame taken).1, here] at entered; cases entered
    | @claimFailed e here =>
        rcases claimFailed_cases cfg now p e with ⟨led, _⟩ | ⟨_, led⟩ | led
        all_goals cases led.symm.trans entered
    | @appEnded result here atEnd =>
        rcases appEnded_cases sha256 p result with ⟨_, led, _⟩ | ⟨led, _⟩ | ⟨led, _⟩
        all_goals cases led.symm.trans entered
    | _ => cases entered

/-- A body is read once. -/
theorem ne_buffering_of_resumes {now : ℕ} {fault : Option PyExc} {p q : Proc}
    (moves : p.Resumes cfg sha256 now fault q) : q.phase ≠ .buffering :=
  unentered_of_resumes moves (.inl rfl)

theorem redisKey_of_resumes {now : ℕ} {fault : Option PyExc} {p q : Proc}
    (moves : p.Resumes cfg sha256 now fault q) :
    q.redisKey cfg sha256 = p.redisKey cfg sha256 := by
  obtain ⟨scope, key⟩ := scope_key_of_resumes moves
  simp only [Proc.redisKey, Ticket.redisKey, Ticket.keyText, scope, key]

/-- A call that leaves the await of a command sends no other one. -/
theorem over_of_resumes {now : ℕ} {fault : Option PyExc} {p q : Proc}
    (moves : p.Resumes cfg sha256 now fault q) (last : p.phase.sent ∨ p.phase.over) :
    q.phase.over := by
  cases moves with
  | claimFailed here => exact claimFailed_over ..
  | deleteFailed here => rfl
  | storeFailed here => rfl
  | unrecorded here taken =>
      rw [(await_frame taken).1, here]
      rfl
  | unrecordedEnded here => rfl
  | _ here =>
      rw [here] at last
      rcases last with sent | finished <;> first | cases sent | cases finished

/-- Only the execution of a `GET` brings a call to its reply. -/
theorem ne_getReply_of_resumes {now : ℕ} {fault : Option PyExc} {p q : Proc} {raw : Option Held}
    (moves : p.Resumes cfg sha256 now fault q) : q.phase ≠ .getReply raw :=
  unentered_of_resumes moves (.inr ⟨raw, rfl⟩)

/-! ## One call in a step -/

variable (cfg sha256) in
/-- What a step of the system does to a call that is there. -/
inductive Proc.Goes (s next : Sys) (id : ℕ) (p : Proc) : Label → Proc → Prop
  | still {l : Label} (other : l ≠ .redis id) : Goes s next id p l p
  | timedOut : Goes s next id p (.timeout id) { p with timedOut := true }
  | resumed {fault : Option PyExc} {q : Proc} (moves : p.Resumes cfg sha256 s.now fault q) :
      Goes s next id p (.resume id fault) q
  | executed {phase : Phase} (does : p.Executes cfg sha256 s.now id s.store next.store phase) :
      Goes s next id p (.redis id) { p with phase }

/-- A call that is there goes on, or is left alone. -/
theorem goes_of_step {s next : Sys} {l : Label} {id : ℕ} {p : Proc} (there : s.procs id = some p)
    (taken : step cfg sha256 s l = some next) :
    ∃ q, next.procs id = some q ∧ p.Goes cfg sha256 s next id l q := by
  cases l with
  | arrive other request =>
      obtain ⟨vacant, rfl⟩ := step_arrive.mp taken
      have different : id ≠ other := by
        rintro rfl
        cases vacant.symm.trans there
      exact ⟨p, (put_procs_of_ne different).trans there, .still nofun⟩
  | elapse ms =>
      obtain rfl := Option.some.inj taken
      exact ⟨p, there, .still nofun⟩
  | timeout other =>
      obtain ⟨q, own, _, rfl⟩ := step_timeout.mp taken
      by_cases same : id = other
      · subst same
        obtain rfl := Option.some.inj (there.symm.trans own)
        exact ⟨_, put_procs_self .., .timedOut⟩
      · exact ⟨p, (put_procs_of_ne same).trans there, .still nofun⟩
  | resume other fault =>
      obtain ⟨q, q', own, _, moved, rfl⟩ := step_resume.mp taken
      by_cases same : id = other
      · subst same
        obtain rfl := Option.some.inj (there.symm.trans own)
        exact ⟨q', put_procs_self .., .resumed (resumes_of_resume moved)⟩
      · rw [← leave_procs s other q] at there
        exact ⟨p, (put_procs_of_ne same).trans there, .still nofun⟩
  | redis other =>
      obtain ⟨q, _, store, own, moved, rfl⟩ := step_redis.mp taken
      obtain ⟨phase, does, rfl⟩ := executes_of_command moved
      by_cases same : id = other
      · subst same
        obtain rfl := Option.some.inj (there.symm.trans own)
        exact ⟨_, put_procs_self .., .executed does⟩
      · refine ⟨p, (put_procs_of_ne same).trans there, .still ?_⟩
        rintro ⟨⟩
        exact same rfl
  | late other =>
      obtain ⟨_, _, store, _, _, rfl⟩ := step_late.mp taken
      exact ⟨p, there, .still nofun⟩

/-- A call that is there after a step has just arrived, or was there before. -/
theorem arrived_or_goes_of_step {s next : Sys} {l : Label} {id : ℕ} {q : Proc}
    (after : next.procs id = some q) (taken : step cfg sha256 s l = some next) :
    (∃ request, l = .arrive id request ∧ q = request.begin cfg) ∨
      ∃ p, s.procs id = some p ∧ p.Goes cfg sha256 s next id l q := by
  cases there : s.procs id with
  | some p =>
      obtain ⟨q', also, goes⟩ := goes_of_step there taken
      obtain rfl := Option.some.inj (after.symm.trans also)
      exact .inr ⟨p, rfl, goes⟩
  | none =>
      -- only an arrival adds a call
      cases l with
      | arrive other request =>
          obtain ⟨_, rfl⟩ := step_arrive.mp taken
          rcases procs_put_cases after with ⟨rfl, rfl⟩ | ⟨_, before⟩
          · exact .inl ⟨request, rfl, rfl⟩
          · cases there.symm.trans before
      | elapse ms =>
          obtain rfl := Option.some.inj taken
          cases there.symm.trans after
      | timeout other =>
          obtain ⟨_, own, _, rfl⟩ := step_timeout.mp taken
          rcases procs_put_cases after with ⟨rfl, _⟩ | ⟨_, before⟩
          · cases there.symm.trans own
          · cases there.symm.trans before
      | resume other fault =>
          obtain ⟨_, _, own, _, _, rfl⟩ := step_resume.mp taken
          rcases procs_put_cases after with ⟨rfl, _⟩ | ⟨_, before⟩
          · cases there.symm.trans own
          · rw [leave_procs] at before
            cases there.symm.trans before
      | redis other =>
          obtain ⟨_, _, _, own, _, rfl⟩ := step_redis.mp taken
          rcases procs_put_cases after with ⟨rfl, _⟩ | ⟨_, before⟩
          · cases there.symm.trans own
          · cases there.symm.trans before
      | late other =>
          obtain ⟨_, _, _, _, _, rfl⟩ := step_late.mp taken
          cases there.symm.trans after

/-- A call that has read its body keeps its ticket in every step. -/
theorem ticket_of_goes {s next : Sys} {l : Label} {id : ℕ} {p q : Proc}
    (goes : p.Goes cfg sha256 s next id l q) (read : p.phase ≠ .buffering) :
    q.phase ≠ .buffering ∧ q.ticket = p.ticket := by
  cases goes with
  | still => exact ⟨read, rfl⟩
  | timedOut => exact ⟨read, rfl⟩
  | resumed moves => exact ⟨ne_buffering_of_resumes moves, ticket_of_resumes moves read⟩
  | executed does => exact ⟨(ne_of_executes does).1, rfl⟩

/-! ## Abandoned commands -/

/-- A command that is abandoned after a step was abandoned before, or its await is left
in this step. -/
theorem abandoned_of_step {s next : Sys} {l : Label} {id : ℕ} {p : Proc}
    (after : next.abandoned id = some p) (taken : step cfg sha256 s l = some next) :
    s.abandoned id = some p ∨
      ∃ fault q, l = .resume id fault ∧ s.procs id = some p ∧ p.phase.sent ∧
        p.Resumes cfg sha256 s.now fault q ∧ next.procs id = some q := by
  cases l with
  | arrive other request =>
      obtain ⟨_, rfl⟩ := step_arrive.mp taken
      exact .inl after
  | elapse ms =>
      obtain rfl := Option.some.inj taken
      exact .inl after
  | timeout other =>
      obtain ⟨_, _, _, rfl⟩ := step_timeout.mp taken
      exact .inl after
  | resume other fault =>
      obtain ⟨q, q', there, _, moved, rfl⟩ := step_resume.mp taken
      rcases abandoned_leave_cases after with ⟨rfl, rfl, sent⟩ | before
      · exact .inr ⟨fault, q', rfl, there, sent, resumes_of_resume moved, put_procs_self ..⟩
      · exact .inl before
  | redis other =>
      obtain ⟨_, _, _, _, _, rfl⟩ := step_redis.mp taken
      exact .inl after
  | late other =>
      obtain ⟨_, _, _, _, _, rfl⟩ := step_late.mp taken
      have different : id ≠ other := by
        rintro rfl
        cases (Function.update_self ..).symm.trans after
      exact .inl ((Function.update_of_ne different ..).symm.trans after)

/-- Whoever has abandoned a command is there, and sends no other one. -/
def Behind (s : Sys) : Prop :=
  ∀ id p, s.abandoned id = some p → ∃ q, s.procs id = some q ∧ q.phase.over

theorem Behind.over {s : Sys} (behind : Behind s) {id : ℕ} {p q : Proc}
    (left : s.abandoned id = some p) (there : s.procs id = some q) : q.phase.over := by
  obtain ⟨q', also, finished⟩ := behind id p left
  obtain rfl := Option.some.inj (there.symm.trans also)
  exact finished

theorem behind_step {s next : Sys} {l : Label} (behind : Behind s)
    (taken : step cfg sha256 s l = some next) : Behind next := by
  intro id p after
  rcases abandoned_of_step after taken with before | ⟨_, q, _, _, sent, moves, there⟩
  · obtain ⟨q, there, finished⟩ := behind id p before
    obtain ⟨q', still, goes⟩ := goes_of_step there taken
    refine ⟨q', still, ?_⟩
    cases goes with
    | still => exact finished
    | timedOut => exact finished
    | resumed moves => exact over_of_resumes moves (.inr finished)
    | executed does => exact absurd does (not_executes_of_over finished)
  · exact ⟨q, there, over_of_resumes moves (.inl sent)⟩

/-- Nothing has happened yet. -/
def Sys.Fresh (s : Sys) : Prop := ∀ id, s.procs id = none ∧ s.abandoned id = none

theorem behind_of_quiet {s : Sys} (quiet : ∀ id, s.abandoned id = none) : Behind s := by
  intro id p there
  cases (quiet id).symm.trans there

/-! ## Runs of single calls -/

/-- Every call has the property. -/
def EveryCall (holds : Proc → Prop) (s : Sys) : Prop := ∀ id p, s.procs id = some p → holds p

/-- A property of single calls that every call begins with and keeps holds of every
call in every run. -/
theorem each_of_run {holds : Proc → Prop} (begins : ∀ request, holds (Request.begin cfg request))
    (timeout : ∀ p, holds p → holds { p with timedOut := true })
    (resume : ∀ now fault p q, holds p → p.Resumes cfg sha256 now fault q → holds q)
    (command : ∀ now id store after p phase, holds p →
      p.Executes cfg sha256 now id store after phase → holds { p with phase })
    {s t : Sys} {ls : List Label} (fresh : ∀ id, s.procs id = none)
    (run : exec (step cfg sha256) s ls = some t) : EveryCall holds t := by
  have start : EveryCall holds s := by
    intro id p there
    rw [fresh] at there
    cases there
  refine exec_invariant_always (fun s l next each taken => ?_) run start
  intro id q after
  rcases arrived_or_goes_of_step after taken with ⟨request, rfl, rfl⟩ | ⟨p, there, goes⟩
  · exact begins request
  · cases goes with
    | still => exact each id _ there
    | timedOut => exact timeout p (each id p there)
    | resumed moves => exact resume _ _ p q (each id p there) moves
    | executed does => exact command _ _ _ _ p _ (each id p there) does

/-- The call is there, and has the property. -/
def Sys.Has (id : ℕ) (holds : Proc → Prop) (s : Sys) : Prop :=
  ∃ p, s.procs id = some p ∧ holds p

/-- A property that a call keeps in every step that meets a condition. -/
theorem has_of_run {id : ℕ} {ok : Sys → Label → Prop} {holds : Proc → Prop}
    (goes : ∀ s next l p q, ok s l → holds p → p.Goes cfg sha256 s next id l q → holds q)
    {s t : Sys} {ls : List Label} (run : exec (step cfg sha256) s ls = some t)
    (every : EveryStep (step cfg sha256) ok s ls) (start : s.Has id holds) : t.Has id holds := by
  refine exec_invariant ?_ run every start
  rintro s l next meets ⟨p, there, before⟩ taken
  obtain ⟨q, after, does⟩ := goes_of_step there taken
  exact ⟨q, after, goes s next l p q meets before does⟩

/-- A property that a call keeps in every step. -/
theorem has_of_run_always {id : ℕ} {holds : Proc → Prop}
    (goes : ∀ s next l p q, holds p → p.Goes cfg sha256 s next id l q → holds q)
    {s t : Sys} {ls : List Label} (run : exec (step cfg sha256) s ls = some t)
    (start : s.Has id holds) : t.Has id holds :=
  has_of_run (fun s next l p q (_ : True) => goes s next l p q) run
    (everyStep_of_forall_mem (fun _ _ _ => trivial) s) start

theorem there_of_run {s t : Sys} {ls : List Label} {id : ℕ} {p : Proc}
    (there : s.procs id = some p) (run : exec (step cfg sha256) s ls = some t) :
    ∃ q, t.procs id = some q := by
  have start : s.Has id fun _ => True := ⟨p, there, trivial⟩
  obtain ⟨q, after, _⟩ := has_of_run_always (fun _ _ _ _ _ _ _ => trivial) run start
  exact ⟨q, after⟩

/-- A call that has read its body keeps its ticket. -/
theorem ticket_of_run {s t : Sys} {ls : List Label} {id : ℕ} {p q : Proc}
    (there : s.procs id = some p) (read : p.phase ≠ .buffering)
    (run : exec (step cfg sha256) s ls = some t) (after : t.procs id = some q) :
    q.ticket = p.ticket := by
  have start : s.Has id fun r => r.phase ≠ .buffering ∧ r.ticket = p.ticket :=
    ⟨p, there, read, rfl⟩
  obtain ⟨q', also, _, same⟩ := has_of_run_always (fun s next l r r' before goes =>
    (ticket_of_goes goes before.1).imp_right fun same => same.trans before.2) run start
  obtain rfl := Option.some.inj (after.symm.trans also)
  exact same

/-- A call that has ended stays so. -/
theorem ended_of_goes {s next : Sys} {l : Label} {id : ℕ} {p q : Proc} {ending : Ending}
    (goes : p.Goes cfg sha256 s next id l q) (ended : p.phase = .ended ending) :
    q.phase = .ended ending := by
  cases goes with
  | still => exact ended
  | timedOut => exact ended
  | resumed moves => exact absurd moves (not_resumes_of_ended ended)
  | executed does => exact absurd does (not_executes_of_over (by rw [ended]; rfl))

/-- A call that has ended has ended for good. -/
theorem ended_of_run {s t : Sys} {ls : List Label} {id : ℕ} {p q : Proc} {ending : Ending}
    (there : s.procs id = some p) (ended : p.phase = .ended ending)
    (run : exec (step cfg sha256) s ls = some t) (after : t.procs id = some q) :
    q.phase = .ended ending := by
  have start : s.Has id fun r => r.phase = .ended ending := ⟨p, there, ended⟩
  obtain ⟨q', also, same⟩ :=
    has_of_run_always (fun _ _ _ _ _ before goes => ended_of_goes goes before) run start
  obtain rfl := Option.some.inj (after.symm.trans also)
  exact same

end PyCommon.Idempotency
