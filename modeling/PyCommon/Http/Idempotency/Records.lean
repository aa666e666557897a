import PyCommon.Http.Idempotency.Reservation

/-!
# What is recorded, and by whom

Along every run the recorder of a call holds what it makes of the messages the app
has handed over (`follows_of_run`), and every value in the store, on its way to a
reader or already replayed is a value that its writer made of its own request
(`allSourced_of_run`).

So whether a done record describes a complete response depends on the messages
alone: it does exactly when they were finished, or when no record is written
(`recorded_complete_iff`). An app that stops in the middle of a stream and returns is
recorded, and its client's retry is answered with the part as if it were the whole
(`stream_cut_short_recorded`).
-/

set_option autoImplicit false

namespace PyCommon.Idempotency

open StepSystem

variable {cfg : IdempotencyMiddleware} {sha256 : Bytes → String}

/-! ## The recorder follows the app -/

variable (cfg) in
/-- The recorder is what the messages handed over make it. -/
def Proc.Follows (p : Proc) : Prop := p.recorder = recordAll cfg.maxStoredBytes {} p.handed

theorem begin_follows (request : Request) : (request.begin cfg).Follows cfg := by
  unfold Request.begin
  cases dispatch cfg request.scope with
  | error e => rfl
  | ok way => cases way <;> rfl

theorem follows_of_await {recorded : Bool} {fault : Option PyExc} {p q : Proc}
    (follows : p.Follows cfg) (taken : p.await cfg recorded fault = some q) : q.Follows cfg := by
  unfold Proc.await at taken
  split at taken
  · cases taken
  · cases taken
  · split at taken
    · obtain rfl := Option.some.inj taken
      exact follows
    · obtain ⟨_, _, rfl⟩ := Option.map_eq_some_iff.mp taken
      exact follows
  · obtain rfl := Option.some.inj taken
    exact follows
  · rename_i message k _
    split at taken
    · obtain rfl := Option.some.inj taken
      have next := recordAll_concat cfg.maxStoredBytes {} p.handed message
      rw [← show p.recorder = _ from follows] at next
      unfold Proc.sendRecorded
      split
      all_goals rename_i record
      all_goals rw [record] at next
      all_goals exact next.symm
    · obtain rfl := Option.some.inj taken
      exact follows

theorem follows_of_resumes {now : ℕ} {fault : Option PyExc} {p q : Proc} (follows : p.Follows cfg)
    (moves : p.Resumes cfg sha256 now fault q) : q.Follows cfg := by
  cases moves with
  | awaited here taken => exact follows_of_await follows taken
  | unrecorded here taken => exact follows_of_await follows taken
  | _ => exact follows

theorem follows_of_run {s t : Sys} {ls : List Label} (fresh : ∀ id, s.procs id = none)
    (run : exec (step cfg sha256) s ls = some t) {id : ℕ} {p : Proc}
    (there : t.procs id = some p) : p.Follows cfg :=
  each_of_run begin_follows (fun _ follows => follows)
    (fun _ _ _ _ follows moves => follows_of_resumes follows moves)
    (fun _ _ _ _ _ _ follows _ => follows) fresh run id p there

/-! ## Complete records -/

/-- A done record of the response is about to be written. -/
def Sys.Records (s : Sys) (id : ℕ) : Prop :=
  ∃ p ∈ s.procs id, ∃ record, p.phase = .storing record

/-- **Records are complete exactly when the messages were.** Once the app has
returned, a done record is written only of a complete response if and only if the
messages were finished, or end in a server error, or exceed the limit. -/
theorem recorded_complete_iff {s t : Sys} {ls : List Label} (fresh : ∀ id, s.procs id = none)
    (run : exec (step cfg sha256) s ls = some t) {id : ℕ} {p : Proc} (there : p ∈ t.procs id)
    (running : p.phase = .running) (returned : p.app.result = some (.ok ())) :
    ((∃ next ∈ step cfg sha256 t (.resume id none), next.Records id) →
        CompleteResponse cfg.maxStoredBytes p.handed) ↔
      finished p.handed ∨ 500 ≤ lastStatus 0 p.handed ∨ Oversized cfg.maxStoredBytes p.handed := by
  have follows : p.recorder = recordAll cfg.maxStoredBytes {} p.handed :=
    follows_of_run fresh run there
  have next : step cfg sha256 t (.resume id none) =
      some (t.put id { p with phase := p.appEnded sha256 (.ok ()) }) := by
    have stays : t.leave id p = t := by
      rw [Sys.leave, running]
      rfl
    refine step_resume.mpr ⟨p, _, there, ?_, ?_, by rw [stays]⟩
    · intro cancelled
      cases cancelled
    · simp only [Proc.resume, running, returned]
  have records : (∃ next ∈ step cfg sha256 t (.resume id none), next.Records id) ↔
      (recordAll cfg.maxStoredBytes {} p.handed).finish (p.ticket.fingerprint sha256) ≠ none := by
    rw [next, ← follows]
    simp only [Option.mem_some_iff, exists_eq_left', Sys.Records, put_procs_self, Proc.appEnded]
    cases p.recorder.finish (p.ticket.fingerprint sha256) <;> simp
  rw [records]
  exact complete_of_finish_iff

/-- The messages of a plain order are finished, so what is recorded is complete. -/
theorem order_recorded_complete :
    ∃ t ∈ exec (step {} decodeLatin1) {} (claiming 0 (order 201) ++ (answering 0).take 2),
      ∃ p ∈ t.procs 0, p.handed = [.start 201 [], .body [] false] ∧
        ((∃ next ∈ step {} decodeLatin1 t (.resume 0 none), next.Records 0) →
          CompleteResponse 262144 p.handed) := by
  obtain ⟨t, run, p, there, handed, running, returned⟩ :
      ∃ t ∈ exec (step {} decodeLatin1) {} (claiming 0 (order 201) ++ (answering 0).take 2),
        ∃ p ∈ t.procs 0, p.handed = [.start 201 [], .body [] false] ∧ p.phase = .running ∧
          p.app.result = some (.ok ()) := by
    decide +kernel
  have ended : finished p.handed := by rw [handed]; rfl
  exact ⟨t, run, p, there, handed,
    (recorded_complete_iff (fun _ => rfl) run there running returned).mpr (.inl ended)⟩

/-- An order whose handler streams its answer and stops after the first part. -/
def interruptedOrder : Request :=
  { order 200 with app := .sending [.start 200 [], .body [91, 49] true] }

/-- The part is recorded, and the retry receives it as the whole response. -/
theorem stream_cut_short_recorded :
    ∃ s ∈ exec (step {} decodeLatin1) {}
        (claiming 0 interruptedOrder ++ answering 0 ++ settling 0 ++
          claiming 1 interruptedOrder ++ settling 1),
      (∃ p ∈ s.procs 0, p.handed = [.start 200 [], .body [91, 49] true] ∧ ¬ finished p.handed) ∧
        let stored : DoneRecord := ⟨orderTicket.fingerprint decodeLatin1, 200, [], "[1"⟩
        (∃ p ∈ s.procs 1, p.phase = .ended (.replayed stored 0)) ∧
          ∃ sent ∈ (replay stored).toOption, finished sent := by
  decide +kernel

/-! ## Where values come from -/

/-- The call is past the recording of a response. -/
def Phase.settled : Phase → Bool
  | .storeReply => true
  | .ended _ => true
  | _ => false

variable (cfg sha256) in
/-- The writer of the value has that key and that fingerprint, and if the value is a
done record, it is what the writer recorded when its app had returned. -/
def Sys.Sourced (s : Sys) (key : String) (held : Held) : Prop :=
  ∃ p ∈ s.procs held.writer, p.phase ≠ .buffering ∧ p.redisKey cfg sha256 = key ∧
    held.value.fingerprint = p.ticket.fingerprint sha256 ∧
    ∀ record, held.value = .done record → p.phase.settled ∧ p.app.result = some (.ok ()) ∧
      p.recorder.finish (p.ticket.fingerprint sha256) = some record

theorem settled_of_resumes {now : ℕ} {fault : Option PyExc} {p q : Proc}
    (moves : p.Resumes cfg sha256 now fault q) (settled : p.phase.settled) :
    q.phase.settled ∧ q.app = p.app ∧ q.recorder = p.recorder := by
  cases moves with
  | stored here => exact ⟨rfl, rfl, rfl⟩
  | claimFailed here => cases phase : p.phase <;> simp_all [Phase.settled, Phase.claiming]
  | buffered here => rw [here] at settled; cases settled
  | unread here => rw [here] at settled; cases settled
  | won here => rw [here] at settled; cases settled
  | lost here => rw [here] at settled; cases settled
  | absent here => rw [here] at settled; cases settled
  | present here => rw [here] at settled; cases settled
  | awaited here => rw [here] at settled; cases settled
  | appEnded here => rw [here] at settled; cases settled
  | deleteFailed here => rw [here] at settled; cases settled
  | deleted here => rw [here] at settled; cases settled
  | storeFailed here => rw [here] at settled; cases settled
  | unrecorded here => rw [here] at settled; cases settled
  | unrecordedEnded here => rw [here] at settled; cases settled

theorem not_executes_of_settled {now id : ℕ} {store after : Store} {p : Proc} {phase : Phase}
    (settled : p.phase.settled) : ¬ p.Executes cfg sha256 now id store after phase := by
  intro does
  cases does with
  | win sent => rw [sent] at settled; cases settled
  | lose sent => rw [sent] at settled; cases settled
  | get sent => rw [sent] at settled; cases settled
  | delete sent => rw [sent] at settled; cases settled
  | store sent => rw [sent] at settled; cases settled

/-- The source of a value stays its source. -/
theorem sourced_step {s next : Sys} {l : Label} {key : String} {held : Held}
    (sourced : s.Sourced cfg sha256 key held) (taken : step cfg sha256 s l = some next) :
    next.Sourced cfg sha256 key held := by
  obtain ⟨p, there, read, sameKey, sameRequest, recorded⟩ := sourced
  obtain ⟨q, after, goes⟩ := goes_of_step there taken
  refine ⟨q, after, ?_⟩
  cases goes with
  | still => exact ⟨read, sameKey, sameRequest, recorded⟩
  | timedOut => exact ⟨read, sameKey, sameRequest, recorded⟩
  | resumed moves =>
      have ticket := ticket_of_resumes moves read
      refine ⟨ne_buffering_of_resumes moves, (redisKey_of_resumes moves).trans sameKey,
        ticket ▸ sameRequest, ?_⟩
      intro record done
      obtain ⟨settled, returned, finished⟩ := recorded record done
      obtain ⟨settled', app, recorder⟩ := settled_of_resumes moves settled
      rw [app, recorder, ticket]
      exact ⟨settled', returned, finished⟩
  | executed does =>
      refine ⟨(ne_of_executes does).1, sameKey, sameRequest, ?_⟩
      intro record done
      -- a call past its recording has no command left
      exact absurd does (not_executes_of_settled (recorded record done).1)

variable (cfg sha256) in
/-- What a call read, replayed or is about to record comes from its writer. -/
structure SourcedCall (s : Sys) (p : Proc) : Prop where
  reply : ∀ held, p.phase = .getReply (some held) →
    s.Sourced cfg sha256 (p.redisKey cfg sha256) held
  replayed : ∀ record writer, p.phase = .ended (.replayed record writer) →
    s.Sourced cfg sha256 (p.redisKey cfg sha256) ⟨.done record, writer⟩ ∧
      record.fingerprint = p.ticket.fingerprint sha256
  storing : ∀ record, p.phase = .storing record → p.app.result = some (.ok ()) ∧
    p.recorder.finish (p.ticket.fingerprint sha256) = some record

variable (cfg sha256) in
/-- What a command of the call writes comes from it. -/
structure SourcedCommand (s : Sys) (id : ℕ) (p : Proc) : Prop where
  marker : p.phase = .setting → s.Sourced cfg sha256 (p.redisKey cfg sha256)
    ⟨.inFlight (p.ticket.fingerprint sha256), id⟩
  record : ∀ record, p.phase = .storing record →
    s.Sourced cfg sha256 (p.redisKey cfg sha256) ⟨.done record, id⟩

variable (cfg sha256) in
/-- Every value in the store, in a call and in a command comes from its writer. -/
structure AllSourced (s : Sys) : Prop where
  store : ∀ key slot, s.store key = some slot → s.Sourced cfg sha256 key slot.value
  calls : ∀ id p, s.procs id = some p → SourcedCall cfg sha256 s p
  late : ∀ id p, s.abandoned id = some p → SourcedCommand cfg sha256 s id p

theorem SourcedCall.step {s next : Sys} {l : Label} {p : Proc}
    (call : SourcedCall cfg sha256 s p) (taken : step cfg sha256 s l = some next) :
    SourcedCall cfg sha256 next p where
  reply held here := sourced_step (call.reply held here) taken
  replayed record writer here :=
    ⟨sourced_step (call.replayed record writer here).1 taken, (call.replayed record writer here).2⟩
  storing := call.storing

theorem begin_sourced (s : Sys) (request : Request) :
    SourcedCall cfg sha256 s (request.begin cfg) := by
  unfold Request.begin
  cases dispatch cfg request.scope with
  | error e => exact ⟨nofun, nofun, nofun⟩
  | ok way => cases way <;> exact ⟨nofun, nofun, nofun⟩

theorem ofResult_ne_replayed (result : Except PyExc Unit) (record : DoneRecord) (writer : ℕ) :
    Ending.ofResult result ≠ .replayed record writer := by
  cases result <;> exact nofun

theorem swallow_ne_replayed {ending : Ending} {record : DoneRecord} {writer : ℕ}
    (other : ending ≠ .replayed record writer) (fault : Option PyExc) :
    swallow ending fault ≠ .replayed record writer := by
  unfold swallow
  split
  · exact other
  · exact other
  · exact nofun

/-- A call replays only the done record it has read, and only under its own
fingerprint. -/
theorem replayed_of_resumes {now : ℕ} {fault : Option PyExc} {p q : Proc} {record : DoneRecord}
    {writer : ℕ} (moves : p.Resumes cfg sha256 now fault q)
    (here : q.phase = .ended (.replayed record writer)) :
    p.phase = .getReply (some ⟨.done record, writer⟩) ∧
      record.fingerprint = p.ticket.fingerprint sha256 := by
  cases moves with
  | present reply =>
      obtain ⟨rfl, same⟩ := handleExisting_eq_replayed.mp (Phase.ended.inj here)
      exact ⟨reply, same⟩
  | @claimFailed e reply =>
      rcases claimFailed_cases cfg now p e with ⟨led, _⟩ | ⟨_, led⟩ | led
      all_goals cases led.symm.trans here
  | awaited running taken => rw [(await_frame taken).1, running] at here; cases here
  | unrecorded direct taken => rw [(await_frame taken).1, direct] at here; cases here
  | @appEnded result running atEnd =>
      rcases appEnded_cases sha256 p result with ⟨_, led, _⟩ | ⟨led, _⟩ | ⟨led, _⟩
      all_goals cases led.symm.trans here
  | deleteFailed =>
      exact absurd (Phase.ended.inj here) (swallow_ne_replayed (ofResult_ne_replayed _ _ _) _)
  | deleted =>
      exact absurd (Phase.ended.inj here) (swallow_ne_replayed (ofResult_ne_replayed _ _ _) _)
  | storeFailed =>
      exact absurd (Phase.ended.inj here)
        (swallow_ne_replayed (ofResult_ne_replayed (.ok ()) _ _) _)
  | stored =>
      exact absurd (Phase.ended.inj here)
        (swallow_ne_replayed (ofResult_ne_replayed (.ok ()) _ _) _)
  | unrecordedEnded => exact absurd (Phase.ended.inj here) (ofResult_ne_replayed _ _ _)
  | _ => cases here

theorem begin_ne_replayed (request : Request) (record : DoneRecord) (writer : ℕ) :
    (request.begin cfg).phase ≠ .ended (.replayed record writer) := by
  unfold Request.begin
  cases dispatch cfg request.scope with
  | error e => exact nofun
  | ok way => cases way <;> exact nofun

/-- A call that replays a record has been given the reply to its `GET`. -/
theorem fault_of_replayed {now : ℕ} {fault : Option PyExc} {p q : Proc} {record : DoneRecord}
    {writer : ℕ} (moves : p.Resumes cfg sha256 now fault q)
    (here : q.phase = .ended (.replayed record writer)) : fault = none := by
  obtain ⟨reply, _⟩ := replayed_of_resumes moves here
  cases moves with
  | present => rfl
  | @claimFailed e _ =>
      rcases claimFailed_cases cfg now p e with ⟨led, _⟩ | ⟨_, led⟩ | led
      all_goals cases led.symm.trans here
  | _ there => cases there.symm.trans reply

/-- A call is about to store the record its recorder made of an app that returned. -/
theorem storing_of_resumes {now : ℕ} {fault : Option PyExc} {p q : Proc} {record : DoneRecord}
    (moves : p.Resumes cfg sha256 now fault q) (here : q.phase = .storing record) :
    q.app.result = some (.ok ()) ∧
      q.recorder.finish (q.ticket.fingerprint sha256) = some record := by
  cases moves with
  | @appEnded result running atEnd =>
      rcases appEnded_cases sha256 p result with ⟨record', led, rfl, finished⟩ | ⟨led, _⟩ | ⟨led, _⟩
      · obtain rfl := Phase.storing.inj (led.symm.trans here)
        exact ⟨atEnd, finished⟩
      · cases led.symm.trans here
      · cases led.symm.trans here
  | @claimFailed e reply =>
      rcases claimFailed_cases cfg now p e with ⟨led, _⟩ | ⟨_, led⟩ | led
      all_goals cases led.symm.trans here
  | awaited running taken => rw [(await_frame taken).1, running] at here; cases here
  | unrecorded direct taken => rw [(await_frame taken).1, direct] at here; cases here
  | _ => cases here

/-- What a `GET` reads comes from its writer, if what the keys hold does. -/
theorem sourcedCall_of_executes {s : Sys} {now id : ℕ} {store after : Store} {p : Proc}
    {phase : Phase} (sourced : ∀ key slot, store key = some slot →
      s.Sourced cfg sha256 key slot.value)
    (does : p.Executes cfg sha256 now id store after phase) :
    SourcedCall cfg sha256 s { p with phase } := by
  cases does with
  | get sent =>
      refine ⟨fun held here => ?_, nofun, nofun⟩
      obtain ⟨slot, found, rfl⟩ := Option.map_eq_some_iff.mp (Phase.getReply.inj here)
      exact sourced _ slot found
  | _ => exact ⟨nofun, nofun, nofun⟩

/-- What a command writes comes from the call that sent it. -/
theorem sourced_of_executes {t : Sys} {now id : ℕ} {store after : Store} {p : Proc}
    {phase : Phase} (does : p.Executes cfg sha256 now id store after phase)
    (kept : ∀ key slot, store key = some slot → t.Sourced cfg sha256 key slot.value)
    (command : SourcedCommand cfg sha256 t id p) (key : String) (slot : Keyspace.Slot Held)
    (held : after key = some slot) : t.Sourced cfg sha256 key slot.value := by
  cases does with
  | win sent free =>
      by_cases same : key = p.redisKey cfg sha256
      · subst same
        obtain rfl := Option.some.inj ((Keyspace.write_self ..).symm.trans held)
        exact command.marker sent
      · exact kept key slot ((Keyspace.write_of_ne same).symm.trans held)
  | lose sent taken => exact kept key slot held
  | get sent => exact kept key slot held
  | delete sent =>
      by_cases same : key = p.redisKey cfg sha256
      · subst same
        cases (Keyspace.delete_self ..).symm.trans held
      · exact kept key slot ((Keyspace.delete_of_ne same).symm.trans held)
  | store sent =>
      by_cases same : key = p.redisKey cfg sha256
      · subst same
        obtain rfl := Option.some.inj ((Keyspace.write_self ..).symm.trans held)
        exact command.record _ sent
      · exact kept key slot ((Keyspace.write_of_ne same).symm.trans held)

/-- A call whose command is executed, or left behind, is the source of what it writes. -/
theorem sourcedCommand_of_after {t : Sys} {id : ℕ} {p q : Proc} (there : t.procs id = some q)
    (read : q.phase ≠ .buffering) (ticket : q.ticket = p.ticket)
    (past : ∀ record, p.phase = .storing record → q.phase.settled ∧ q.app = p.app ∧
      q.recorder = p.recorder ∧ p.app.result = some (.ok ()) ∧
        p.recorder.finish (p.ticket.fingerprint sha256) = some record) :
    SourcedCommand cfg sha256 t id p := by
  have sameKey : q.redisKey cfg sha256 = p.redisKey cfg sha256 := by
    rw [Proc.redisKey, ticket]
    rfl
  constructor
  · intro _
    refine ⟨q, there, read, sameKey, by rw [ticket]; rfl, ?_⟩
    intro record done
    cases done
  · intro record here
    obtain ⟨settled, app, recorder, returned, finished⟩ := past record here
    refine ⟨q, there, read, sameKey, ?_, ?_⟩
    · rw [ticket]
      exact fingerprint_of_finish finished
    · intro record' done
      obtain rfl := Stored.done.inj done
      rw [app, recorder, ticket]
      exact ⟨settled, returned, finished⟩

theorem sourcedCommand_step {s next : Sys} {l : Label} {id : ℕ} {p : Proc}
    (command : SourcedCommand cfg sha256 s id p) (taken : step cfg sha256 s l = some next) :
    SourcedCommand cfg sha256 next id p where
  marker here := sourced_step (command.marker here) taken
  record record here := sourced_step (command.record record here) taken

/-- A call that leaves the `SET` of its record is past the recording. -/
theorem settled_of_left {now : ℕ} {fault : Option PyExc} {p q : Proc} {record : DoneRecord}
    (moves : p.Resumes cfg sha256 now fault q) (here : p.phase = .storing record) :
    q.phase.settled ∧ q.app = p.app ∧ q.recorder = p.recorder := by
  cases moves with
  | storeFailed => exact ⟨rfl, rfl, rfl⟩
  | claimFailed claiming => rw [here] at claiming; cases claiming
  | _ other => cases here.symm.trans other

theorem AllSourced.kept {s next : Sys} {l : Label} (all : AllSourced cfg sha256 s)
    (taken : step cfg sha256 s l = some next) (key : String) (slot : Keyspace.Slot Held)
    (held : s.store key = some slot) : next.Sourced cfg sha256 key slot.value :=
  sourced_step (all.store key slot held) taken

/-- What a key holds after a step was there before, or was written by a call that is its
source. -/
theorem AllSourced.store_step {s next : Sys} {l : Label} (all : AllSourced cfg sha256 s)
    (taken : step cfg sha256 s l = some next) (key : String) (slot : Keyspace.Slot Held)
    (held : next.store key = some slot) : next.Sourced cfg sha256 key slot.value := by
  have kept := all.kept taken
  cases l with
  | arrive id request =>
      obtain ⟨_, rfl⟩ := step_arrive.mp taken
      exact kept key slot held
  | elapse ms =>
      obtain rfl := Option.some.inj taken
      exact kept key slot (Keyspace.evict_eq_some.mp held).1
  | timeout id =>
      obtain ⟨_, _, _, rfl⟩ := step_timeout.mp taken
      exact kept key slot held
  | resume id fault =>
      obtain ⟨p, _, _, _, _, rfl⟩ := step_resume.mp taken
      exact kept key slot ((congrFun (leave_store s id p) key).symm.trans held)
  | redis id =>
      obtain ⟨p, _, after, there, moved, rfl⟩ := step_redis.mp taken
      obtain ⟨phase, does, rfl⟩ := executes_of_command moved
      refine sourced_of_executes does kept ?_ key slot held
      refine sourcedCommand_of_after (put_procs_self ..) (ne_of_executes does).1 rfl ?_
      intro record here
      have settled : phase.settled := by
        cases does with
        | store sent => rfl
        | _ sent => cases here.symm.trans sent
      exact ⟨settled, rfl, rfl, (all.calls id p there).storing record here⟩
  | late id =>
      obtain ⟨p, _, after, left, moved, rfl⟩ := step_late.mp taken
      obtain ⟨phase, does, rfl⟩ := executes_of_command moved
      exact sourced_of_executes does kept (sourcedCommand_step (all.late id p left) taken) key slot
        held

theorem AllSourced.calls_step {s next : Sys} {l : Label} (all : AllSourced cfg sha256 s)
    (taken : step cfg sha256 s l = some next) (id : ℕ) (q : Proc)
    (after : next.procs id = some q) : SourcedCall cfg sha256 next q := by
  rcases arrived_or_goes_of_step after taken with ⟨request, rfl, rfl⟩ | ⟨p, there, goes⟩
  · exact begin_sourced _ request
  · have call := (all.calls id p there).step taken
    cases goes with
    | still => exact call
    | timedOut => exact ⟨call.reply, call.replayed, call.storing⟩
    | resumed moves =>
        refine ⟨fun held here => absurd here (ne_getReply_of_resumes moves), ?_,
          fun record here => storing_of_resumes moves here⟩
        intro record writer here
        obtain ⟨reply, same⟩ := replayed_of_resumes moves here
        rw [redisKey_of_resumes moves, ticket_of_resumes moves (by rw [reply]; nofun)]
        exact ⟨call.reply _ reply, same⟩
    | executed does => exact sourcedCall_of_executes (all.kept taken) does

/-- A command that is left behind in a step was sent by a call that is past it. -/
theorem AllSourced.late_step {s next : Sys} {l : Label} (all : AllSourced cfg sha256 s)
    (taken : step cfg sha256 s l = some next) (id : ℕ) (p : Proc)
    (left : next.abandoned id = some p) : SourcedCommand cfg sha256 next id p := by
  rcases abandoned_of_step left taken with before | ⟨_, q, _, there, sent, moves, own⟩
  · exact sourcedCommand_step (all.late id p before) taken
  · have read : p.phase ≠ .buffering := by
      intro here
      rw [here] at sent
      cases sent
    refine sourcedCommand_of_after own (ne_buffering_of_resumes moves)
      (ticket_of_resumes moves read) ?_
    intro record here
    obtain ⟨settled, app, recorder⟩ := settled_of_left moves here
    exact ⟨settled, app, recorder, (all.calls id p there).storing record here⟩

theorem allSourced_step {s next : Sys} {l : Label} (all : AllSourced cfg sha256 s)
    (taken : step cfg sha256 s l = some next) : AllSourced cfg sha256 next :=
  ⟨all.store_step taken, all.calls_step taken, all.late_step taken⟩

theorem allSourced_of_run {s t : Sys} {ls : List Label} (fresh : s.Fresh)
    (vacant : ∀ key, s.store key = none) (run : exec (step cfg sha256) s ls = some t) :
    AllSourced cfg sha256 t := by
  have start : AllSourced cfg sha256 s := by
    refine ⟨fun key slot held => ?_, fun id p there => ?_, fun id p left => ?_⟩
    · cases (vacant key).symm.trans held
    · cases (fresh id).1.symm.trans there
    · cases (fresh id).2.symm.trans left
  exact exec_invariant_always (fun s l next all taken => allSourced_step all taken) run start

/-- A replayed record comes from a request with the same Redis key and the same
fingerprint. -/
theorem agrees_of_replayed {s t : Sys} {ls : List Label} (fresh : s.Fresh)
    (vacant : ∀ key, s.store key = none) (run : exec (step cfg sha256) s ls = some t)
    {first later : ℕ} {p q : Proc} {record : DoneRecord} (hp : t.procs first = some p)
    (hq : t.procs later = some q) (answered : q.phase = .ended (.replayed record first)) :
    p.redisKey cfg sha256 = q.redisKey cfg sha256 ∧
      p.ticket.fingerprint sha256 = q.ticket.fingerprint sha256 := by
  have all := allSourced_of_run fresh vacant run
  obtain ⟨⟨p', there, _, sameKey, source, _⟩, own⟩ :=
    (all.calls later q hq).replayed record first answered
  obtain rfl := Option.some.inj (hp.symm.trans there)
  exact ⟨sameKey, source.symm.trans own⟩

end PyCommon.Idempotency
