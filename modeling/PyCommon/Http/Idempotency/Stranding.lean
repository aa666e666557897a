import PyCommon.Http.Idempotency.Reservation

/-!
# Markers that outlive their request

A marker is removed by the request that placed it: when the app raises an
`Exception` or returns a response that is not recorded it is deleted, and when the
response is recorded it is overwritten. `CancelledError` is no `Exception`, and the
timeout layer around the middleware ends a call with it, so a call that is cancelled
while its key holds its marker leaves the marker behind. And a call that is cancelled
before the server has executed its `SET NX` does not take the command back: executed
later, it places a marker for a request that is over.

These are the only ways. In a run in which Redis answers, every marker belongs to a
request still in progress exactly when no call is cut off like this and no abandoned
`SET NX` takes effect (`markers_attended_iff`). A handler that is too slow is cut off,
and the retry of its client is refused as in progress
(`timed_out_order_refuses_retry`); so is the retry of a request whose deadline passed
at its first command (`abandoned_claim_refuses_retry`).
-/

set_option autoImplicit false

namespace PyCommon.Idempotency

open StepSystem

variable {cfg : IdempotencyMiddleware} {sha256 : Bytes → String}

/-- The call has not ended. -/
def Phase.inProgress : Phase → Bool
  | .ended _ => false
  | _ => true

/-- Every marker in the store was placed by a request still in progress. -/
def NoneStranded (s : Sys) : Prop :=
  ∀ key, ∀ slot ∈ s.store key, slot.value.value.isDone = false →
    ∃ p ∈ s.procs slot.value.writer, p.phase.inProgress

variable (cfg sha256) in
/-- Every marker in the store was placed by a request that owns its key, and whoever
has abandoned a command has ended. -/
structure Attended (s : Sys) : Prop where
  marker : ∀ key, ∀ slot ∈ s.store key, slot.value.value.isDone = false →
    ∃ p ∈ s.procs slot.value.writer, p.phase.owner ∧ p.redisKey cfg sha256 = key
  gone : ∀ id p, s.abandoned id = some p → ∃ q ∈ s.procs id, q.phase.inProgress = false

/-- The await at a Redis command, or the app, ends the call with `CancelledError`. -/
def Proc.CutOff (p : Proc) (fault : Option PyExc) : Prop :=
  p.phase.atRedis ∧ fault = some .cancelledError ∨
    p.phase = .running ∧ p.app.result = some (.error .cancelledError)

instance (p : Proc) (fault : Option PyExc) : Decidable (p.CutOff fault) :=
  inferInstanceAs (Decidable (p.phase.atRedis ∧ fault = some .cancelledError ∨
    p.phase = .running ∧ p.app.result = some (.error .cancelledError)))

variable (cfg sha256) in
/-- No call is cut off while its key holds its marker, and no abandoned `SET NX` finds
its key free. -/
def NotCutOff (s : Sys) : Label → Prop
  | .resume id fault => ∀ p ∈ s.procs id, s.HoldsMarker cfg sha256 id p → ¬ p.CutOff fault
  | .late id => ∀ p ∈ s.abandoned id, p.phase = .setting → s.store (p.redisKey cfg sha256) ≠ none
  | _ => True

instance (s : Sys) (l : Label) : Decidable (NotCutOff cfg sha256 s l) :=
  match l with
  | .resume id fault => inferInstanceAs (Decidable
      (∀ p ∈ s.procs id, s.HoldsMarker cfg sha256 id p → ¬ p.CutOff fault))
  | .late id => inferInstanceAs (Decidable
      (∀ p ∈ s.abandoned id, p.phase = .setting → s.store (p.redisKey cfg sha256) ≠ none))
  | .arrive _ _ | .elapse _ | .timeout _ | .redis _ => isTrue trivial

/-! ## Owners that are not cut off -/

theorem inProgress_of_owner {phase : Phase} (owner : phase.owner) : phase.inProgress := by
  cases phase <;> first | rfl | cases owner

/-- While Redis answers, an owner stays an owner until its command is executed,
unless it is cut off. -/
theorem owner_of_not_cutOff {now : ℕ} {fault : Option PyExc} {p q : Proc}
    (moves : p.Resumes cfg sha256 now fault q) (owner : p.phase.owner)
    (answers : ∀ e ∈ fault, p.phase.atRedis → e = .cancelledError) (whole : ¬ p.CutOff fault) :
    q.phase.owner := by
  -- a fault at a Redis command is a cancellation
  have noFault : ∀ e, fault = some e → p.phase.atRedis → q.phase.owner := by
    rintro e rfl atRedis
    obtain rfl := answers e rfl atRedis
    exact absurd (.inl ⟨atRedis, rfl⟩) whole
  cases moves with
  | won here => rfl
  | absent here => rfl
  | awaited here taken => rw [(await_frame taken).1, here]; rfl
  | @appEnded result here atEnd =>
      rcases appEnded_cases sha256 p result with ⟨_, led, _⟩ | ⟨led, _⟩ | ⟨_, rfl⟩
      · rw [led]
        rfl
      · rw [led]
        rfl
      · exact absurd (.inr ⟨here, atEnd⟩) whole
  | claimFailed here => exact noFault _ rfl (atRedis_of_claiming here)
  | deleteFailed here => exact noFault _ rfl (by rw [here]; rfl)
  | storeFailed here => exact noFault _ rfl (by rw [here]; rfl)
  | _ here => rw [here] at owner; cases owner

/-- A call that is cut off ends. -/
theorem ended_of_cutOff {now : ℕ} {fault : Option PyExc} {p q : Proc}
    (moves : p.Resumes cfg sha256 now fault q) (cut : p.CutOff fault) :
    q.phase.inProgress = false := by
  rcases cut with ⟨atRedis, rfl⟩ | ⟨running, atEnd⟩
  · cases moves with
    | claimFailed here => rfl
    | deleteFailed here => rfl
    | deleted here => rfl
    | storeFailed here => rfl
    | stored here => rfl
    | unread here => rfl
    | awaited here => rw [here] at atRedis; cases atRedis
    | unrecorded here => rw [here] at atRedis; cases atRedis
  · cases moves with
    | appEnded here ended =>
        obtain rfl := Option.some.inj (atEnd.symm.trans ended)
        rfl
    | awaited here taken => rw [result_of_await taken] at atEnd; cases atEnd
    | _ here => rw [running] at here; cases here

/-! ## Steps -/

theorem atRedis_of_sent {phase : Phase} (sent : phase.sent) : phase.atRedis := by
  cases phase <;> first | rfl | cases sent

/-- While Redis answers, only a call that is cut off abandons a command. -/
theorem gone_step {s next : Sys} {l : Label} (answers : RedisAnswers s l)
    (attended : Attended cfg sha256 s) (taken : step cfg sha256 s l = some next) (id : ℕ)
    (p : Proc) (after : next.abandoned id = some p) :
    ∃ q ∈ next.procs id, q.phase.inProgress = false := by
  rcases abandoned_of_step after taken with before | ⟨fault, q, rfl, there, sent, moves, own⟩
  · obtain ⟨q, there, ended⟩ := attended.gone id p before
    obtain ⟨q', still, goes⟩ := goes_of_step there taken
    refine ⟨q', still, ?_⟩
    cases atEnd : q.phase with
    | ended ending =>
        rw [ended_of_goes goes atEnd]
        rfl
    | _ => rw [atEnd] at ended; cases ended
  · have atRedis := atRedis_of_sent sent
    refine ⟨q, own, ended_of_cutOff moves (.inl ⟨atRedis, ?_⟩)⟩
    cases fault with
    | none => rw [sent_of_resumes moves] at sent; cases sent
    | some e => rw [answers p there atRedis]

/-- Replacing a request by one that owns the same key, or that owned none, keeps
every marker attended. -/
theorem Attended.put {s : Sys} (attended : Attended cfg sha256 s) {id : ℕ} {q : Proc}
    (still : ∀ p ∈ s.procs id, p.phase.owner → s.HoldsMarker cfg sha256 id p →
      q.phase.owner ∧ q.redisKey cfg sha256 = p.redisKey cfg sha256) (key : String)
    (slot : Keyspace.Slot Held) (held : slot ∈ s.store key)
    (inFlight : slot.value.value.isDone = false) :
    ∃ p ∈ (s.put id q).procs slot.value.writer,
      p.phase.owner ∧ p.redisKey cfg sha256 = key := by
  obtain ⟨p, there, owner, rfl⟩ := attended.marker key slot held inFlight
  by_cases same : slot.value.writer = id
  · subst same
    obtain ⟨after, sameKey⟩ := still p there owner ⟨slot, held, rfl, inFlight⟩
    exact ⟨q, put_procs_self .., after, sameKey⟩
  · exact ⟨p, (put_procs_of_ne same).trans there, owner, rfl⟩

/-- A marker after a command was there before, under another key if the command was
sent by an owner, or was placed by the command. -/
theorem marker_of_executes {now id : ℕ} {store after : Store} {p : Proc} {phase : Phase}
    (does : p.Executes cfg sha256 now id store after phase) {key : String}
    {slot : Keyspace.Slot Held} (held : slot ∈ after key)
    (inFlight : slot.value.value.isDone = false) :
    (store key = some slot ∧ (key ≠ p.redisKey cfg sha256 ∨ p.phase.owner = false)) ∨
      p.phase = .setting ∧ store (p.redisKey cfg sha256) = none ∧ phase = .setReply true ∧
        key = p.redisKey cfg sha256 ∧ slot.value.writer = id := by
  cases does with
  | win sent free =>
      by_cases same : key = p.redisKey cfg sha256
      · subst same
        obtain rfl := Option.some.inj ((Keyspace.write_self ..).symm.trans held)
        exact .inr ⟨sent, free, rfl, rfl, rfl⟩
      · exact .inl ⟨(Keyspace.write_of_ne same).symm.trans held, .inl same⟩
  | lose sent taken => exact .inl ⟨held, .inr (by rw [sent]; rfl)⟩
  | get sent => exact .inl ⟨held, .inr (by rw [sent]; rfl)⟩
  | delete sent =>
      by_cases same : key = p.redisKey cfg sha256
      · subst same
        exact absurd ((Keyspace.delete_self ..).symm.trans held) (by simp)
      · exact .inl ⟨(Keyspace.delete_of_ne same).symm.trans held, .inl same⟩
  | store sent =>
      by_cases same : key = p.redisKey cfg sha256
      · subst same
        obtain rfl := Option.some.inj ((Keyspace.write_self ..).symm.trans held)
        cases inFlight
      · exact .inl ⟨(Keyspace.write_of_ne same).symm.trans held, .inl same⟩

/-- The commands of an owner remove its marker, and of the others none adds one but
`SET NX`, which makes an owner. -/
theorem Attended.executes {s : Sys} (attended : Attended cfg sha256 s) {id : ℕ} {p : Proc}
    {store : Store} {phase : Phase} (there : s.procs id = some p)
    (does : p.Executes cfg sha256 s.now id s.store store phase) (key : String)
    (slot : Keyspace.Slot Held) (held : slot ∈ store key)
    (inFlight : slot.value.value.isDone = false) :
    ∃ q ∈ (s.put id { p with phase }).procs slot.value.writer,
      q.phase.owner ∧ q.redisKey cfg sha256 = key := by
  rcases marker_of_executes does held inFlight with
    ⟨before, apart⟩ | ⟨_, _, rfl, rfl, rfl⟩
  · obtain ⟨q, own, owner, rfl⟩ := attended.marker key slot before inFlight
    have different : slot.value.writer ≠ id := by
      rintro rfl
      obtain rfl := Option.some.inj (there.symm.trans own)
      rcases apart with other | idle
      · exact other rfl
      · rw [idle] at owner
        cases owner
    exact ⟨q, (put_procs_of_ne different).trans own, owner, rfl⟩
  · exact ⟨_, put_procs_self .., rfl, rfl⟩

theorem attended_step {s next : Sys} {l : Label} (answers : RedisAnswers s l)
    (whole : NotCutOff cfg sha256 s l) (attended : Attended cfg sha256 s)
    (taken : step cfg sha256 s l = some next) : Attended cfg sha256 next := by
  refine ⟨?_, gone_step answers attended taken⟩
  cases l with
  | arrive id request =>
      obtain ⟨vacant, rfl⟩ := step_arrive.mp taken
      refine attended.put fun p there => ?_
      rw [vacant] at there
      cases there
  | elapse ms =>
      obtain rfl := Option.some.inj taken
      intro key slot held
      exact attended.marker key slot (Keyspace.evict_eq_some.mp held).1
  | timeout id =>
      obtain ⟨p, there, _, rfl⟩ := step_timeout.mp taken
      refine attended.put fun p' also owner _ => ?_
      obtain rfl := Option.some.inj (there.symm.trans also)
      exact ⟨owner, rfl⟩
  | resume id fault =>
      obtain ⟨p, q, there, _, moved, rfl⟩ := step_resume.mp taken
      have moves := resumes_of_resume moved
      have same : ((s.leave id p).put id q).procs = (s.put id q).procs := by
        simp only [Sys.put, leave_procs]
      intro key slot held
      rw [same]
      refine attended.put ?_ key slot ((congrFun (leave_store s id p) key).symm.trans held)
      intro p' also owner marker
      obtain rfl := Option.some.inj (there.symm.trans also)
      refine ⟨owner_of_not_cutOff moves owner ?_ (whole p there marker), redisKey_of_resumes moves⟩
      rintro e rfl atRedis
      exact answers p there atRedis
  | redis id =>
      obtain ⟨p, _, store, there, moved, rfl⟩ := step_redis.mp taken
      obtain ⟨phase, does, rfl⟩ := executes_of_command moved
      exact attended.executes there does
  | late id =>
      obtain ⟨p, _, store, left, moved, rfl⟩ := step_late.mp taken
      obtain ⟨phase, does, rfl⟩ := executes_of_command moved
      intro key slot held inFlight
      rcases marker_of_executes does held inFlight with ⟨before, _⟩ | ⟨claims, free, _⟩
      · exact attended.marker key slot before inFlight
      · exact absurd free (whole p left claims)

/-- A call that is cut off leaves its marker behind, and so does a `SET NX` that is
executed when its call is over. -/
theorem stranded_of_cutOff {s next : Sys} {l : Label} (attended : Attended cfg sha256 s)
    (cut : ¬ NotCutOff cfg sha256 s l) (taken : step cfg sha256 s l = some next) :
    ¬ NoneStranded next := by
  cases l with
  | resume id fault =>
      obtain ⟨p, q, there, _, moved, rfl⟩ := step_resume.mp taken
      simp only [NotCutOff, not_forall, not_not] at cut
      obtain ⟨p', also, ⟨slot, held, rfl, inFlight⟩, cut⟩ := cut
      obtain rfl := Option.some.inj (there.symm.trans also)
      intro unstranded
      rw [← leave_store s slot.value.writer p] at held
      obtain ⟨q', after, inProgress⟩ := unstranded _ slot held inFlight
      obtain rfl := Option.some.inj ((put_procs_self ..).symm.trans after)
      rw [ended_of_cutOff (resumes_of_resume moved) cut] at inProgress
      cases inProgress
  | late id =>
      obtain ⟨p, _, store, left, moved, rfl⟩ := step_late.mp taken
      simp only [NotCutOff, not_forall, not_not] at cut
      obtain ⟨p', also, claims, free⟩ := cut
      obtain rfl := Option.some.inj (left.symm.trans also)
      obtain ⟨phase, does, rfl⟩ := executes_of_command moved
      obtain ⟨q, there, ended⟩ := attended.gone id p left
      cases does with
      | win =>
          intro unstranded
          obtain ⟨q', after, inProgress⟩ := unstranded _ _ (Keyspace.write_self ..) rfl
          obtain rfl := Option.some.inj (there.symm.trans after)
          rw [ended] at inProgress
          cases inProgress
      | lose _ held => cases free.symm.trans held
      | _ sent => cases claims.symm.trans sent
  | _ => exact absurd trivial cut

theorem Attended.noneStranded {s : Sys} (attended : Attended cfg sha256 s) : NoneStranded s := by
  intro key slot held inFlight
  obtain ⟨p, there, owner, _⟩ := attended.marker key slot held inFlight
  exact ⟨p, there, inProgress_of_owner owner⟩

/-- **Markers are stranded exactly by cancellation.** In a run in which Redis
answers, from a store without markers and with no command on the way, every marker
found at any moment belongs to a request still in progress if and only if no call is
cut off while its key holds its marker, and no `SET NX` whose await was cancelled is
executed on a free key. -/
theorem markers_attended_iff {s t : Sys} {ls : List Label}
    (settled : ∀ key, ∀ slot ∈ s.store key, slot.value.value.isDone)
    (quiet : ∀ id, s.abandoned id = none)
    (run : exec (step cfg sha256) s ls = some t)
    (answers : EveryStep (step cfg sha256) RedisAnswers s ls) :
    EveryState (step cfg sha256) NoneStranded s ls ↔
      EveryStep (step cfg sha256) (NotCutOff cfg sha256) s ls := by
  have start : Attended cfg sha256 s := by
    refine ⟨fun key slot held inFlight => ?_, fun id p left => ?_⟩
    · rw [settled key slot held] at inFlight
      cases inFlight
    · cases (quiet id).symm.trans left
  refine everyState_iff_everyStep (fun _ => Attended.noneStranded) ?_ ?_ run answers start
  · intro s l next answers whole attended taken
    exact attended_step answers whole attended taken
  · intro s l next _ cut attended taken
    exact stranded_of_cutOff attended cut taken

theorem orders_leave_no_marker :
    EveryState (step {} decodeLatin1) NoneStranded {} orderTwice := by
  have run : (exec (step {} decodeLatin1) {} orderTwice).isSome := by decide +kernel
  have answers : EveryStep (step {} decodeLatin1) RedisAnswers {} orderTwice := by decide +kernel
  have whole : EveryStep (step {} decodeLatin1) (NotCutOff {} decodeLatin1) {} orderTwice := by
    decide +kernel
  refine (markers_attended_iff ?_ (fun _ => rfl) (Option.some_get run).symm answers).mpr whole
  intro key slot held
  cases held

/-- An order whose handler first waits, and does not catch what the wait raises. -/
def slowOrder : Request :=
  { order 201 with app := .sleep fun waited =>
      match waited with
      | .ok _ => (order 201).app
      | .error e => .raise e }

/-- The deadline passes while the handler waits; the client tries again. -/
def timedOutOrder : List Label :=
  claiming 0 slowOrder ++ [.timeout 0, .resume 0 (some .cancelledError), .resume 0 none] ++
    claiming 1 (order 201) ++ settling 1

/-- The cancelled call has ended, its marker is still there, and the retry is
refused because of it. -/
theorem timed_out_order_refuses_retry :
    EveryStep (step {} decodeLatin1) RedisAnswers {} timedOutOrder ∧
      ∃ s ∈ exec (step {} decodeLatin1) {} timedOutOrder,
        (∃ slot ∈ s.store (orderTicket.redisKey decodeLatin1 {}),
          slot.value = ⟨.inFlight (orderTicket.fingerprint decodeLatin1), 0⟩) ∧
        (∃ p ∈ s.procs 0, p.phase = .ended (.raised .cancelledError)) ∧
        ∃ p ∈ s.procs 1, p.phase = .ended (.problem (p.conflict s.now 409
          "A request with this Idempotency-Key is still in progress")) := by
  decide +kernel

/-- The deadline passes while an order waits for its `SET NX`; the command is executed
afterwards, and the client tries again. -/
def abandonedClaim : List Label :=
  [.arrive 0 (order 201), .resume 0 none, .timeout 0, .resume 0 (some .cancelledError), .late 0] ++
    claiming 1 (order 201) ++ settling 1

/-- The cancelled call has ended without having run its app, and the retry is refused
because of its marker. -/
theorem abandoned_claim_refuses_retry :
    EveryStep (step {} decodeLatin1) RedisAnswers {} abandonedClaim ∧
      ∃ s ∈ exec (step {} decodeLatin1) {} abandonedClaim,
        (∃ p ∈ s.procs 0, p.phase = .ended (.raised .cancelledError) ∧ p.handed = []) ∧
        ∃ p ∈ s.procs 1, p.phase = .ended (.problem (p.conflict s.now 409
          "A request with this Idempotency-Key is still in progress")) := by
  decide +kernel

end PyCommon.Idempotency
